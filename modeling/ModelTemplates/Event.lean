import ModelTemplates.Data.Decode
/-! What the handlers tell of their writes. -/
namespace ModelTemplates

inductive Event where
  | versionLinked (version template : Key) (time : Timestamp)
  | versionAssigned (version template : Key) (number : UInt32) (time : Timestamp)
  | versionConfigured (version : Key) (succeeded : Bool) (message : String) (time : Timestamp)
  | defaultVersionSelected (template : Key) (reference : String) (time : Timestamp)
  | defaultVersionResolved (template : Key) (number : UInt32) (time : Timestamp)
  | defaultVersionUnresolved (template : Key) (message : String) (time : Timestamp)
  | latestVersionSynced (template : Key) (number : UInt32) (time : Timestamp)
  | ledgerEntryRemoved (template : Key) (time : Timestamp)
deriving DecidableEq

namespace Event

/-- The object that the event is about. -/
def subject : Event → Key
  | versionLinked v _ _ => v
  | versionAssigned v _ _ _ => v
  | versionConfigured v _ _ _ => v
  | defaultVersionSelected t _ _ => t
  | defaultVersionResolved t _ _ => t
  | defaultVersionUnresolved t _ _ => t
  | latestVersionSynced t _ _ => t
  | ledgerEntryRemoved t _ => t

def kind : Event → Kind
  | versionLinked .. => .version
  | versionAssigned .. => .version
  | versionConfigured .. => .version
  | _ => .template

/-- The name of the event and its members. -/
def body : Event → String × List (String × Data)
  | versionLinked v t w =>
    ("VersionLinked", [("version", v.toData), ("template", t.toData), ("linked_at", .text w.text)])
  | versionAssigned v t n w =>
    ("VersionAssigned", [("version", v.toData), ("template", t.toData), ("number", .int n.toNat),
      ("assigned_at", .text w.text)])
  | versionConfigured v ok m w =>
    ("VersionConfigured", [("version", v.toData), ("succeeded", .bool ok), ("message", .text m),
      ("configured_at", .text w.text)])
  | defaultVersionSelected t r w =>
    ("DefaultVersionSelected",
      [("template", t.toData), ("version_ref", .text r), ("selected_at", .text w.text)])
  | defaultVersionResolved t n w =>
    ("DefaultVersionResolved", [("template", t.toData), ("default_version", .int n.toNat),
      ("resolved_at", .text w.text)])
  | defaultVersionUnresolved t m w =>
    ("DefaultVersionUnresolved",
      [("template", t.toData), ("message", .text m), ("observed_at", .text w.text)])
  | latestVersionSynced t n w =>
    ("LatestVersionSynced", [("template", t.toData), ("latest_version", .int n.toNat),
      ("synced_at", .text w.text)])
  | ledgerEntryRemoved t w =>
    ("LedgerEntryRemoved", [("template", t.toData), ("removed_at", .text w.text)])

def kindTag : Kind → String
  | .template => "template"
  | .version => "version"

/-- The kind of the subject beside the event's name and members. -/
def toData (e : Event) : Data :=
  .object [("type", .text (kindTag e.kind)), (e.body.1, .object e.body.2)]

/-- All members that events have. -/
structure Draft where
  version : Option Key
  template : Option Key
  number : Option UInt32
  succeeded : Option Bool
  text : Option String
  time : Option Timestamp

def Draft.empty : Draft := ⟨none, none, none, none, none, none⟩

/-- Names that one event gives to its number, its text and its time. -/
structure Labels where
  number : String
  text : String
  time : String

def draftMember (names : List String) (labels : Labels) (dialect : Dialect) (p : Draft)
    (name : String) (d : Data) : Decoded Draft :=
  if !names.contains name then .ok p
  else if name = "version" then do .ok { p with version := some (← Key.ofData dialect d) }
  else if name = "template" then do .ok { p with template := some (← Key.ofData dialect d) }
  else if name = labels.number then do .ok { p with number := some (← Data.uint32 dialect d) }
  else if name = "succeeded" then do .ok { p with succeeded := some (← Data.boolean dialect d) }
  else if name = labels.text then do .ok { p with text := some (← Data.string dialect d) }
  else do .ok { p with time := some (← Data.timestamp dialect d) }

/-- Members of one event, given by name or as a list. -/
def variantBody (names : List String) (labels : Labels) (type : String)
    (finish : (String → DecodeError) → Draft → Decoded Event) : Decoder Event := fun dialect d =>
  match d with
  | .record _ => Data.members type names Draft.empty (draftMember names labels) finish dialect d
  | .list _ => Data.members type names Draft.empty (draftMember names labels) finish dialect d
  | d => .error (Data.mismatch dialect "struct variant" d)

open Data (require) in
def linked : Decoder Event :=
  variantBody ["version", "template", "linked_at"] ⟨"", "",
    "linked_at"⟩ "struct variant VersionEvent::VersionLinked"
    fun missing p => do
      .ok (.versionLinked (← require missing "version" p.version)
        (← require missing "template" p.template)
        (← require missing "linked_at" p.time))

open Data (require) in
def assigned : Decoder Event :=
  variantBody ["version", "template", "number", "assigned_at"] ⟨"number", "", "assigned_at"⟩
    "struct variant VersionEvent::VersionAssigned" fun missing p => do
      .ok (.versionAssigned (← require missing "version" p.version)
        (← require missing "template" p.template)
        (← require missing "number" p.number) (← require missing "assigned_at" p.time))

open Data (require) in
def configured : Decoder Event :=
  variantBody ["version", "succeeded", "message", "configured_at"] ⟨"", "message", "configured_at"⟩
    "struct variant VersionEvent::VersionConfigured" fun missing p => do
      .ok (.versionConfigured (← require missing "version" p.version)
        (← require missing "succeeded" p.succeeded) (← require missing "message" p.text)
        (← require missing "configured_at" p.time))

open Data (require) in
def selected : Decoder Event :=
  variantBody ["template", "version_ref", "selected_at"] ⟨"", "version_ref", "selected_at"⟩
    "struct variant TemplateEvent::DefaultVersionSelected" fun missing p => do
      .ok (.defaultVersionSelected (← require missing "template" p.template)
        (← require missing "version_ref" p.text) (← require missing "selected_at" p.time))

open Data (require) in
def resolved : Decoder Event :=
  variantBody ["template", "default_version", "resolved_at"] ⟨"default_version", "", "resolved_at"⟩
    "struct variant TemplateEvent::DefaultVersionResolved" fun missing p => do
      .ok (.defaultVersionResolved (← require missing "template" p.template)
        (← require missing "default_version" p.number) (← require missing "resolved_at" p.time))

open Data (require) in
def unresolved : Decoder Event :=
  variantBody ["template", "message", "observed_at"] ⟨"", "message", "observed_at"⟩
    "struct variant TemplateEvent::DefaultVersionUnresolved" fun missing p => do
      .ok (.defaultVersionUnresolved (← require missing "template" p.template)
        (← require missing "message" p.text) (← require missing "observed_at" p.time))

open Data (require) in
def synced : Decoder Event :=
  variantBody ["template", "latest_version", "synced_at"] ⟨"latest_version", "", "synced_at"⟩
    "struct variant TemplateEvent::LatestVersionSynced" fun missing p => do
      .ok (.latestVersionSynced (← require missing "template" p.template)
        (← require missing "latest_version" p.number) (← require missing "synced_at" p.time))

open Data (require) in
def removed : Decoder Event :=
  variantBody ["template", "removed_at"] ⟨"", "", "removed_at"⟩
    "struct variant TemplateEvent::LedgerEntryRemoved" fun missing p => do
      .ok (.ledgerEntryRemoved (← require missing "template" p.template)
        (← require missing "removed_at" p.time))

/-- The events of a kind, by name. -/
def variants : Kind → List (String × Decoder Event)
  | .version =>
    [("VersionLinked", linked), ("VersionAssigned", assigned), ("VersionConfigured", configured)]
  | .template =>
    [("DefaultVersionSelected", selected), ("DefaultVersionResolved", resolved),
      ("DefaultVersionUnresolved", unresolved), ("LatestVersionSynced", synced),
      ("LedgerEntryRemoved", removed)]

/-- The event itself, set apart from its kind. -/
def ofBody (kind : Kind) (dialect : Dialect) (d : Data) : Decoded Event :=
  match d with
  | .record [(.text name, v)] => do (← Data.named (variants kind) name) dialect v
  | .record _ => .error (.invalidValue "map" "map with a single key")
  | .text name => do
    let _ ← Data.named (variants kind) name
    .error (.invalidType "unit variant" "struct variant")
  | d => .error (Data.mismatch dialect "string or map" d)

def kinds : List (String × Kind) := [("version", .version), ("template", .template)]

def ofTag (dialect : Dialect) (d : Data) : Decoded Kind := do
  Data.named kinds (← Data.asText "variant identifier" dialect d)

def isType (m : Data × Data) : Bool := Data.sameKey m.1 (.text "type")

/-- An event beside its kind; in a list the kind comes first. -/
def ofData : Decoder Event := fun _ d =>
  match d with
  | .record ms =>
    match ms.find? isType with
    | some (_, tag) => do
        ofBody (← ofTag .json tag) .buffered (.record (ms.filter fun m => !isType m))
    | none => .error (.missingField "type")
  | .list (tag :: xs) => do ofBody (← ofTag .json tag) .buffered (.list xs)
  | .list [] => .error (.missingField "type")
  | d => .error (Data.mismatch .json "internally tagged enum ControllerEvent" d)

end Event
end ModelTemplates
