import ModelTemplates.Proofs.Object.Reading
import ModelTemplates.Template
/-! Templates read back from what is written of them. -/
namespace ModelTemplates

open Data (ReadsAs)

variable {d : Data} {dialect : Dialect}

namespace TemplateSpec

def upTo (s : TemplateSpec) (seen : List String) : TemplateSpec where
  description := if "description" ∈ seen then s.description else none
  defaultVersionRef := if "defaultVersionRef" ∈ seen then s.defaultVersionRef else none

theorem ofData_reads (s : TemplateSpec) : ReadsAs ofData s.toData s := by
  refine Data.members_read s.upTo rfl ?_ fun seen hseen => ?_
  · simp only [List.forall_mem_append, Data.forall_optionalMember, member]
    refine ⟨fun t ht seen => (Data.optional_reads (Data.string_reads t) nofun).bind ?_,
      fun t ht seen => (Data.optional_reads (Data.string_reads t) nofun).bind ?_⟩
    all_goals simp [upTo, *]
  · simp only [List.forall_mem_append, Data.forall_optionalMember] at hseen
    obtain ⟨hdescription, href⟩ := hseen
    simp [upTo, Data.kept_some hdescription, Data.kept_some href]

end TemplateSpec

namespace TemplateStatus

def upTo (s : TemplateStatus) (seen : List String) : TemplateStatus where
  defaultVersion := if "defaultVersion" ∈ seen then s.defaultVersion else 0
  latestVersion := if "latestVersion" ∈ seen then s.latestVersion else 0
  observedGeneration := if "observedGeneration" ∈ seen then s.observedGeneration else 0
  conditions := if "conditions" ∈ seen then s.conditions else []

theorem ofData_reads {s : TemplateStatus} (h : ∀ c ∈ s.conditions, c.Regular) :
    ReadsAs ofData s.toData s := by
  refine Data.members_read s.upTo rfl ?_ fun seen hseen => ?_
  · simp only [List.forall_mem_append, List.forall_mem_cons, Data.forall_listMember,
      member, and_assoc]
    refine ⟨fun seen => (Data.uint32_reads _).bind ?_, fun seen => (Data.uint32_reads _).bind ?_,
      fun seen => (Data.int64_reads _).bind ?_, nofun,
      fun _ seen => (Data.listOf_reads fun c hc => Condition.ofData_reads (h c hc)).bind ?_⟩
    all_goals simp [upTo]
  · simp only [List.forall_mem_append, List.forall_mem_cons, Data.forall_listMember,
      and_assoc] at hseen
    obtain ⟨hdefault, hlatest, hobserved, -, hconditions⟩ := hseen
    rw [ne_eq, List.map_eq_nil_iff] at hconditions
    simp [upTo, hdefault, hlatest, hobserved, Data.kept hconditions]

theorem regular_of_ofData {s : TemplateStatus} (h : ofData dialect d = .ok s) :
    ∀ c ∈ s.conditions, c.Regular := by
  refine Data.members_forall (K := fun s => ∀ c ∈ s.conditions, c.Regular)
    (P := fun s => ∀ c ∈ s.conditions, c.Regular) ?_ ?_ ?_ h
  · exact List.forall_mem_nil _
  · intro s name e s' hs h
    rw [member.eq_def] at h
    split at h <;> simp only [bind_eq_ok, Except.ok.injEq] at h
    case h_4 =>
      obtain ⟨cs, hcs, rfl⟩ := h
      exact Data.forall_of_listOf (fun _ _ => Condition.regular_of_ofData) hcs
    case h_5 => exact h ▸ hs
    all_goals
      obtain ⟨a, -, rfl⟩ := h
      exact hs
  · rintro missing s _ hs ⟨⟩
    exact hs

end TemplateStatus

namespace Template

structure Regular (t : Template) : Prop where
  metadata : t.metadata.Regular
  conditions : ∀ c ∈ t.status.conditions, c.Regular

def upTo (t : Template) (seen : List String) : Option Meta × TemplateSpec × TemplateStatus :=
  (if "metadata" ∈ seen then some t.metadata else none, if "spec" ∈ seen then t.spec else .empty,
    if "status" ∈ seen then t.status else .empty)

theorem ofData_reads {t : Template} (h : Regular t) : ReadsAs ofData t.toData t := by
  refine Data.members_read (upTo t) rfl ?_ fun seen hseen => ?_
  · simp only [List.forall_mem_cons, member]
    refine ⟨fun seen => (Meta.ofData_reads h.metadata).bind ?_, fun seen =>
      (TemplateSpec.ofData_reads _).bind ?_, fun seen =>
        (TemplateStatus.ofData_reads h.conditions).bind ?_, nofun⟩
    all_goals simp [upTo]
  · simp only [List.forall_mem_cons] at hseen
    obtain ⟨hmetadata, hspec, hstatus, -⟩ := hseen
    simp [upTo, finish, hmetadata, hspec, hstatus, Data.require, ok_bind]

theorem regular_of_ofData {t : Template} (h : ofData dialect d = .ok t) : Regular t := by
  refine Data.members_forall
    (K := fun p => (∀ m ∈ p.1, m.Regular) ∧ ∀ c ∈ p.2.2.conditions, c.Regular) ?_ ?_ ?_ h
  · refine ⟨?_, List.forall_mem_nil _⟩
    rintro m ⟨⟩
  · rintro p name e s' ⟨hmeta, hconditions⟩ h
    rw [member.eq_def] at h
    split at h <;> simp only [bind_eq_ok, Except.ok.injEq] at h
    case h_1 =>
      obtain ⟨m, hm, rfl⟩ := h
      refine ⟨?_, hconditions⟩
      rintro _ ⟨⟩
      exact Meta.regular_of_ofData hm
    case h_2 =>
      obtain ⟨s, -, rfl⟩ := h
      exact ⟨hmeta, hconditions⟩
    case h_3 =>
      obtain ⟨s, hs, rfl⟩ := h
      exact ⟨hmeta, TemplateStatus.regular_of_ofData hs⟩
    case h_4 => exact h ▸ ⟨hmeta, hconditions⟩
  · rintro missing p t ⟨hmeta, hconditions⟩ h
    obtain ⟨m, hm, h⟩ := bind_eq_ok.mp h
    obtain rfl := Except.ok.inj h
    exact ⟨hmeta m (Data.require_eq_ok hm), hconditions⟩

end Template
end ModelTemplates
