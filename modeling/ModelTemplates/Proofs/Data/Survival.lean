import ModelTemplates.Proofs.Event.Reading
import ModelTemplates.Proofs.Template.Reading
import ModelTemplates.Proofs.Version.Reading
/-! Templates, versions and events survive being written and read. -/
namespace ModelTemplates

open Data (ReadsAs)

/-- What is written of an object is read as that object, in whatever order its members come, exactly
if all of its moments are those of a clock; and whatever is read is such an object, so that writing
and reading it again gives the same. -/
theorem written_objects_read_back :
    (∀ t : Template, ReadsAs Template.ofData t.toData t ↔ Template.Regular t)
    ∧ (∀ v : Version, ReadsAs Version.ofData v.toData v ↔ Version.Regular v)
    ∧ (∀ e : Event, ReadsAs Event.ofData e.toData e ↔ e.time.Regular)
    ∧ (∀ dialect d t, Template.ofData dialect d = .ok t →
      ReadsAs Template.ofData (Template.toData t) t)
    ∧ (∀ dialect d v, Version.ofData dialect d = .ok v →
      ReadsAs Version.ofData (Version.toData v) v)
    ∧ ∀ dialect d e, Event.ofData dialect d = .ok e → ReadsAs Event.ofData e.toData e := by
  refine ⟨fun t => ⟨fun h => ?_, Template.ofData_reads⟩,
    fun v => ⟨fun h => ?_, Version.ofData_reads⟩, fun e => ⟨fun h => ?_, Event.ofData_reads⟩,
    fun dialect d t h => ?_, fun dialect d v h => ?_, fun dialect d e h => ?_⟩
  · exact Template.regular_of_ofData (h .json _ (.refl _))
  · exact Version.regular_of_ofData (h .json _ (.refl _))
  · exact Event.regular_of_ofData (h .json _ (.refl _))
  · exact Template.ofData_reads (Template.regular_of_ofData h)
  · exact Version.ofData_reads (Version.regular_of_ofData h)
  · exact Event.ofData_reads (Event.regular_of_ofData h)

def leapSecond : Timestamp := ⟨2016, 12, 31, 23, 59, 59, 1000000000, by decide⟩

def retiring : Template where
  metadata :=
    { Meta.named "models" "chat" with uid := some ⟨7⟩, deletionTimestamp := some leapSecond }
  spec := ⟨some "", none⟩
  status := { TemplateStatus.empty with
    conditions := [⟨.defaultVersionResolved, .unknown, "", "gone", leapSecond, leapSecond⟩] }

def fresh : Version := ⟨Meta.named "" "v", { VersionSpec.empty with templateName := "t" }, .empty⟩

/-- With leap seconds, with an option that holds the empty text, with members in another order or
left out. -/
theorem written_objects_read_back_leap :
    ReadsAs Template.ofData (Template.toData retiring) retiring
    ∧ Event.ofData .json (.object
      [("LedgerEntryRemoved", .object [("template", (Key.mk "models" "chat").toData),
        ("removed_at", .text leapSecond.text)]), ("type", .text "template")]) =
      .ok (.ledgerEntryRemoved ⟨"models", "chat"⟩ leapSecond)
    ∧ Version.ofData .json (.object [("metadata", .object [("name", .text "v")]),
      ("spec", .object [("templateName", .text "t")])]) = .ok fresh
    ∧ ReadsAs Version.ofData (Version.toData fresh) fresh := by
  have hleap : leapSecond.Regular := by decide
  have hretiring : Template.Regular retiring := by
    refine ⟨⟨?_, ?_⟩, List.forall_mem_singleton.mpr ⟨hleap, hleap⟩⟩
    · rintro _ ⟨⟩
    · rintro _ ⟨⟩
      exact hleap
  have hfresh : Version.ofData .json (.object [("metadata", .object [("name", .text "v")]),
      ("spec", .object [("templateName", .text "t")])]) = .ok fresh := rfl
  refine ⟨(written_objects_read_back.1 retiring).mpr hretiring, ?_, hfresh, ?_⟩
  · refine (written_objects_read_back.2.2.1 (.ledgerEntryRemoved ⟨"models", "chat"⟩ leapSecond)).mpr
      hleap .json _ ?_
    exact .record (.swap _ _ _) rfl (List.forall₂_same.mpr fun x _ => .refl x)
  · exact written_objects_read_back.2.2.2.2.1 .json _ fresh hfresh

end ModelTemplates
