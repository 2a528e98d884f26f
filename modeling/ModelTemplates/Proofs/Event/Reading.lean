import Mathlib.Data.List.Permutation
import ModelTemplates.Proofs.Data.Members
import ModelTemplates.Event
/-! Events read back from what is written of them. -/
namespace ModelTemplates

open Data (ReadsAs)

namespace Key

def upTo (k : Key) (seen : List String) : Option String × Option String :=
  (if "namespace" ∈ seen then some k.space else none, if "name" ∈ seen then some k.name else none)

theorem ofData_reads (k : Key) : ReadsAs ofData k.toData k := by
  refine Data.members_read k.upTo rfl ?_ fun seen hseen => ?_
  · simp only [List.forall_mem_cons]
    refine ⟨fun seen => (Data.string_reads _).bind ?_, fun seen =>
      (Data.string_reads _).bind ?_, nofun⟩
    all_goals simp [upTo]
  · simp only [List.forall_mem_cons] at hseen
    obtain ⟨hspace, hname, -⟩ := hseen
    simp [upTo, hspace, hname, Data.require, ok_bind]

end Key

namespace Event

variable {names : List String} {labels : Labels} {type : String}
  {finish : (String → DecodeError) → Draft → Decoded Event} {e : Event} {ms : List (String × Data)}
  {d : Data} {dialect : Dialect}

def time : Event → Timestamp
  | versionLinked _ _ w => w
  | versionAssigned _ _ _ w => w
  | versionConfigured _ _ _ w => w
  | defaultVersionSelected _ _ w => w
  | defaultVersionResolved _ _ w => w
  | defaultVersionUnresolved _ _ w => w
  | latestVersionSynced _ _ w => w
  | ledgerEntryRemoved _ w => w

def Draft.upTo (p : Draft) (labels : Labels) (seen : List String) : Draft where
  version := if "version" ∈ seen then p.version else none
  template := if "template" ∈ seen then p.template else none
  number := if labels.number ∈ seen then p.number else none
  succeeded := if "succeeded" ∈ seen then p.succeeded else none
  text := if labels.text ∈ seen then p.text else none
  time := if labels.time ∈ seen then p.time else none

theorem variantBody_reads (p : Draft)
    (hstep : ∀ m ∈ ms, ∀ seen,
      ReadsAs (fun dialect d => draftMember names labels dialect (p.upTo labels seen) m.1 d) m.2
        (p.upTo labels (m.1 :: seen)))
    (hfinish : ∀ seen, (∀ m ∈ ms, m.1 ∈ seen) → finish .missingField (p.upTo labels seen) = .ok e) :
    ReadsAs (variantBody names labels type finish) (.object ms) e := by
  have hstart : p.upTo labels [] = Draft.empty := by simp [Draft.upTo, Draft.empty]
  have hread :
      ReadsAs (Data.members type names Draft.empty (draftMember names labels) finish)
        (.object ms) e :=
    Data.members_read (p.upTo labels) hstart hstep hfinish
  intro dialect d hd
  obtain ⟨ws, ns, rfl, -⟩ := hd.eq_record
  exact hread dialect _ hd

theorem linked_reads (v t : Key) {w : Timestamp} (hw : w.Regular) :
    ReadsAs linked (.object (versionLinked v t w).body.2) (versionLinked v t w) := by
  refine variantBody_reads ⟨some v, some t, none, none, none, some w⟩ ?_ fun seen hseen => ?_
  · simp only [body, List.forall_mem_cons]
    refine ⟨fun seen => (Key.ofData_reads v).bind ?_, fun seen => (Key.ofData_reads t).bind ?_,
      fun seen => (Data.timestamp_reads hw).bind ?_, nofun⟩
    all_goals simp [Draft.upTo]
  · simp only [body, List.forall_mem_cons] at hseen
    simp [Draft.upTo, hseen, Data.require, ok_bind]

theorem assigned_reads (v t : Key) (n : UInt32) {w : Timestamp} (hw : w.Regular) :
    ReadsAs assigned (.object (versionAssigned v t n w).body.2) (versionAssigned v t n w) := by
  refine variantBody_reads ⟨some v, some t, some n, none, none, some w⟩ ?_ fun seen hseen => ?_
  · simp only [body, List.forall_mem_cons]
    refine ⟨fun seen => (Key.ofData_reads v).bind ?_, fun seen => (Key.ofData_reads t).bind ?_,
      fun seen => (Data.uint32_reads n).bind ?_, fun seen =>
        (Data.timestamp_reads hw).bind ?_, nofun⟩
    all_goals simp [Draft.upTo]
  · simp only [body, List.forall_mem_cons] at hseen
    simp [Draft.upTo, hseen, Data.require, ok_bind]

theorem configured_reads (v : Key) (b : Bool) (m : String) {w : Timestamp} (hw : w.Regular) :
    ReadsAs configured (.object (versionConfigured v b m w).body.2)
      (versionConfigured v b m w) := by
  refine variantBody_reads ⟨some v, none, none, some b, some m, some w⟩ ?_ fun seen hseen => ?_
  · simp only [body, List.forall_mem_cons]
    refine ⟨fun seen => (Key.ofData_reads v).bind ?_, fun seen => (Data.boolean_reads b).bind ?_,
      fun seen => (Data.string_reads m).bind ?_, fun seen =>
        (Data.timestamp_reads hw).bind ?_, nofun⟩
    all_goals simp [Draft.upTo]
  · simp only [body, List.forall_mem_cons] at hseen
    simp [Draft.upTo, hseen, Data.require, ok_bind]

theorem selected_reads (t : Key) (r : String) {w : Timestamp} (hw : w.Regular) :
    ReadsAs selected (.object (defaultVersionSelected t r w).body.2)
      (defaultVersionSelected t r w) := by
  refine variantBody_reads ⟨none, some t, none, none, some r, some w⟩ ?_ fun seen hseen => ?_
  · simp only [body, List.forall_mem_cons]
    refine ⟨fun seen => (Key.ofData_reads t).bind ?_, fun seen => (Data.string_reads r).bind ?_,
      fun seen => (Data.timestamp_reads hw).bind ?_, nofun⟩
    all_goals simp [Draft.upTo]
  · simp only [body, List.forall_mem_cons] at hseen
    simp [Draft.upTo, hseen, Data.require, ok_bind]

theorem resolved_reads (t : Key) (n : UInt32) {w : Timestamp} (hw : w.Regular) :
    ReadsAs resolved (.object (defaultVersionResolved t n w).body.2)
      (defaultVersionResolved t n w) := by
  refine variantBody_reads ⟨none, some t, some n, none, none, some w⟩ ?_ fun seen hseen => ?_
  · simp only [body, List.forall_mem_cons]
    refine ⟨fun seen => (Key.ofData_reads t).bind ?_, fun seen => (Data.uint32_reads n).bind ?_,
      fun seen => (Data.timestamp_reads hw).bind ?_, nofun⟩
    all_goals simp [Draft.upTo]
  · simp only [body, List.forall_mem_cons] at hseen
    simp [Draft.upTo, hseen, Data.require, ok_bind]

theorem unresolved_reads (t : Key) (m : String) {w : Timestamp} (hw : w.Regular) :
    ReadsAs unresolved (.object (defaultVersionUnresolved t m w).body.2)
      (defaultVersionUnresolved t m w) := by
  refine variantBody_reads ⟨none, some t, none, none, some m, some w⟩ ?_ fun seen hseen => ?_
  · simp only [body, List.forall_mem_cons]
    refine ⟨fun seen => (Key.ofData_reads t).bind ?_, fun seen => (Data.string_reads m).bind ?_,
      fun seen => (Data.timestamp_reads hw).bind ?_, nofun⟩
    all_goals simp [Draft.upTo]
  · simp only [body, List.forall_mem_cons] at hseen
    simp [Draft.upTo, hseen, Data.require, ok_bind]

theorem synced_reads (t : Key) (n : UInt32) {w : Timestamp} (hw : w.Regular) :
    ReadsAs synced (.object (latestVersionSynced t n w).body.2) (latestVersionSynced t n w) := by
  refine variantBody_reads ⟨none, some t, some n, none, none, some w⟩ ?_ fun seen hseen => ?_
  · simp only [body, List.forall_mem_cons]
    refine ⟨fun seen => (Key.ofData_reads t).bind ?_, fun seen => (Data.uint32_reads n).bind ?_,
      fun seen => (Data.timestamp_reads hw).bind ?_, nofun⟩
    all_goals simp [Draft.upTo]
  · simp only [body, List.forall_mem_cons] at hseen
    simp [Draft.upTo, hseen, Data.require, ok_bind]

theorem removed_reads (t : Key) {w : Timestamp} (hw : w.Regular) :
    ReadsAs removed (.object (ledgerEntryRemoved t w).body.2) (ledgerEntryRemoved t w) := by
  refine variantBody_reads ⟨none, some t, none, none, none, some w⟩ ?_ fun seen hseen => ?_
  · simp only [body, List.forall_mem_cons]
    refine ⟨fun seen => (Key.ofData_reads t).bind ?_, fun seen =>
      (Data.timestamp_reads hw).bind ?_, nofun⟩
    all_goals simp [Draft.upTo]
  · simp only [body, List.forall_mem_cons] at hseen
    simp [Draft.upTo, hseen, Data.require, ok_bind]

theorem body_reads (h : e.time.Regular) :
    ∃ read, (variants e.kind).lookup e.body.1 = some read ∧ ReadsAs read (.object e.body.2) e := by
  cases e with
  | versionLinked v t w => exact ⟨linked, rfl, linked_reads v t h⟩
  | versionAssigned v t n w => exact ⟨assigned, rfl, assigned_reads v t n h⟩
  | versionConfigured v b m w => exact ⟨configured, rfl, configured_reads v b m h⟩
  | defaultVersionSelected t r w => exact ⟨selected, rfl, selected_reads t r h⟩
  | defaultVersionResolved t n w => exact ⟨resolved, rfl, resolved_reads t n h⟩
  | defaultVersionUnresolved t m w => exact ⟨unresolved, rfl, unresolved_reads t m h⟩
  | latestVersionSynced t n w => exact ⟨synced, rfl, synced_reads t n h⟩
  | ledgerEntryRemoved t w => exact ⟨removed, rfl, removed_reads t h⟩

theorem lookup_kindTag (k : Kind) : kinds.lookup (kindTag k) = some k := by
  cases k <;> decide

theorem isType_text (s : String) (d : Data) : isType (.text s, d) = (s == "type") := by
  rw [isType, Data.sameKey]

theorem name_ne_type (e : Event) : (e.body.1 == "type") = false := by
  cases e <;> rfl

theorem ofData_reads (h : e.time.Regular) : ReadsAs ofData e.toData e := by
  obtain ⟨read, hlookup, hread⟩ := body_reads h
  intro dialect d hd
  obtain ⟨ws, ns, rfl, hp, hns⟩ := hd.eq_record
  have htag {tag : Data} (ht : (Data.text (kindTag e.kind)).Rearranged tag) :
      ofTag .json tag = .ok e.kind := by
    rw [ofTag, Data.asText_reads _ _ _ _ ht, ok_bind, Data.named, lookup_kindTag]
  have hbody {v : Data} (hv : (Data.object e.body.2).Rearranged v) :
      ofBody e.kind .buffered (.record [(.text e.body.1, v)]) = .ok e := by
    rw [ofBody, Data.named, hlookup, ok_bind]
    exact hread _ _ hv
  rcases List.pair_perm.mp hp with rfl | rfl
  · simp only [List.forall₂_cons_left_iff, List.forall₂_nil_left_iff] at hns
    obtain ⟨⟨_, tag⟩, _, ⟨rfl, ht⟩, ⟨⟨_, v⟩, _, ⟨rfl, hv⟩, rfl, rfl⟩, rfl⟩ := hns
    simp [ofData, isType_text, name_ne_type, htag ht, ok_bind, hbody hv]
  · simp only [List.forall₂_cons_left_iff, List.forall₂_nil_left_iff] at hns
    obtain ⟨⟨_, v⟩, _, ⟨rfl, hv⟩, ⟨⟨_, tag⟩, _, ⟨rfl, ht⟩, rfl, rfl⟩, rfl⟩ := hns
    simp [ofData, isType_text, name_ne_type, htag ht, ok_bind, hbody hv]

theorem draftMember_regular {p p' : Draft} {name : String} (hp : ∀ t ∈ p.time, t.Regular)
    (h : draftMember names labels dialect p name d = .ok p') : ∀ t ∈ p'.time, t.Regular := by
  rw [draftMember] at h
  split at h
  · exact Except.ok.inj h ▸ hp
  iterate 5
    split at h
    · obtain ⟨a, -, h⟩ := bind_eq_ok.mp h
      exact Except.ok.inj h ▸ hp
  obtain ⟨t, ht, h⟩ := bind_eq_ok.mp h
  obtain rfl := Except.ok.inj h
  rintro _ ⟨⟩
  exact Data.timestamp_regular ht

theorem variantBody_regular (hfinish : ∀ missing p e, finish missing p = .ok e → e.time ∈ p.time)
    (h : variantBody names labels type finish dialect d = .ok e) : e.time.Regular := by
  have hread (h : Data.members type names Draft.empty (draftMember names labels) finish dialect d =
    .ok e) :
      e.time.Regular := by
    refine Data.members_forall (K := fun p : Draft => ∀ t ∈ p.time, t.Regular)
      (P := fun e : Event => e.time.Regular) ?_ ?_ ?_ h
    · rintro t ⟨⟩
    · exact fun p name d p' => draftMember_regular
    · exact fun missing p e hp he => hp _ (hfinish missing p e he)
  unfold variantBody at h
  split at h
  · exact hread h
  · exact hread h
  · contradiction

theorem variants_regular {kind : Kind} {name : String} {read : Decoder Event}
    (hmem : (name, read) ∈ variants kind) (h : read dialect d = .ok e) : e.time.Regular := by
  cases kind with
  | version =>
    simp only [variants, List.mem_cons, List.not_mem_nil, or_false, Prod.mk.injEq] at hmem
    rcases hmem with ⟨-, rfl⟩ | ⟨-, rfl⟩ | ⟨-, rfl⟩
    all_goals
      refine variantBody_regular (fun missing p e he => ?_) h
      simp only [bind_eq_ok, Except.ok.injEq] at he
    · obtain ⟨_, -, _, -, _, hw, rfl⟩ := he
      exact Data.require_eq_ok hw
    · obtain ⟨_, -, _, -, _, -, _, hw, rfl⟩ := he
      exact Data.require_eq_ok hw
    · obtain ⟨_, -, _, -, _, -, _, hw, rfl⟩ := he
      exact Data.require_eq_ok hw
  | template =>
    simp only [variants, List.mem_cons, List.not_mem_nil, or_false, Prod.mk.injEq] at hmem
    rcases hmem with ⟨-, rfl⟩ | ⟨-, rfl⟩ | ⟨-, rfl⟩ | ⟨-, rfl⟩ | ⟨-, rfl⟩
    all_goals
      refine variantBody_regular (fun missing p e he => ?_) h
      simp only [bind_eq_ok, Except.ok.injEq] at he
    · obtain ⟨_, -, _, -, _, hw, rfl⟩ := he
      exact Data.require_eq_ok hw
    · obtain ⟨_, -, _, -, _, hw, rfl⟩ := he
      exact Data.require_eq_ok hw
    · obtain ⟨_, -, _, -, _, hw, rfl⟩ := he
      exact Data.require_eq_ok hw
    · obtain ⟨_, -, _, -, _, hw, rfl⟩ := he
      exact Data.require_eq_ok hw
    · obtain ⟨_, -, _, hw, rfl⟩ := he
      exact Data.require_eq_ok hw

theorem ofBody_regular {kind : Kind} (h : ofBody kind dialect d = .ok e) : e.time.Regular := by
  rw [ofBody.eq_def] at h
  split at h
  · obtain ⟨read, hread, h⟩ := bind_eq_ok.mp h
    rw [Data.named] at hread
    split at hread
    · next hlookup =>
      obtain rfl := Except.ok.inj hread
      obtain ⟨_, _, hvariants, -⟩ := List.lookup_eq_some_iff.mp hlookup
      exact variants_regular (hvariants ▸ List.mem_append_right _ List.mem_cons_self) h
    · contradiction
  · contradiction
  · obtain ⟨_, -, h⟩ := bind_eq_ok.mp h
    contradiction
  · contradiction

theorem regular_of_ofData (h : ofData dialect d = .ok e) : e.time.Regular := by
  rw [ofData.eq_def] at h
  split at h
  · split at h
    · obtain ⟨_, -, h⟩ := bind_eq_ok.mp h
      exact ofBody_regular h
    · contradiction
  · obtain ⟨_, -, h⟩ := bind_eq_ok.mp h
    exact ofBody_regular h
  · contradiction
  · contradiction

end Event
end ModelTemplates
