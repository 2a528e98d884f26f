import ModelTemplates.Proofs.Data.Members
import ModelTemplates.Condition
/-! Identities and conditions read back from what is written of them. -/
namespace ModelTemplates

open Data (ReadsAs)

variable {d : Data} {dialect : Dialect}

namespace OwnerReference

def upTo (o : OwnerReference) (seen : List String) : Draft where
  apiVersion := if "apiVersion" ∈ seen then some o.apiVersion else none
  kind := if "kind" ∈ seen then some o.kind else none
  name := if "name" ∈ seen then some o.name else none
  uid := if "uid" ∈ seen then some o.uid else none

theorem ofData_reads (o : OwnerReference) : ReadsAs ofData o.toData o := by
  refine Data.members_read o.upTo rfl ?_ fun seen hseen => ?_
  · simp only [List.forall_mem_cons, member]
    refine ⟨fun seen => (Data.string_reads _).bind ?_, fun seen => (Data.string_reads _).bind ?_,
      fun seen => (Data.string_reads _).bind ?_, fun seen => (Data.uid_reads _).bind ?_, nofun⟩
    all_goals simp [upTo]
  · simp only [List.forall_mem_cons] at hseen
    obtain ⟨hversion, hkind, hname, huid, -⟩ := hseen
    simp [upTo, finish, hversion, hkind, hname, huid, Data.require, ok_bind]

end OwnerReference

namespace Meta

structure Regular (m : Meta) : Prop where
  creation : ∀ t ∈ m.creationTimestamp, t.Regular
  deletion : ∀ t ∈ m.deletionTimestamp, t.Regular

def upTo (m : Meta) (seen : List String) : Option String × Meta :=
  (if "name" ∈ seen then some m.name else none,
    { name := ""
      space := if "namespace" ∈ seen then m.space else ""
      uid := if "uid" ∈ seen then m.uid else none
      resourceVersion := if "resourceVersion" ∈ seen then m.resourceVersion else 0
      generation := if "generation" ∈ seen then m.generation else 0
      creationTimestamp := if "creationTimestamp" ∈ seen then m.creationTimestamp else none
      deletionTimestamp := if "deletionTimestamp" ∈ seen then m.deletionTimestamp else none
      labels := if "labels" ∈ seen then m.labels else .empty
      owners := if "ownerReferences" ∈ seen then m.owners else [] })

theorem ofData_reads {m : Meta} (h : m.Regular) : ReadsAs ofData m.toData m := by
  refine Data.members_read m.upTo rfl ?_ fun seen hseen => ?_
  · simp only [List.forall_mem_append, List.forall_mem_cons, Data.forall_optionalMember,
      Data.forall_tableMember, Data.forall_listMember, member, and_assoc]
    refine ⟨fun seen => (Data.string_reads _).bind ?_, fun seen =>
      (Data.string_reads _).bind ?_, nofun, fun u hu seen =>
        (Data.optional_reads (Data.uid_reads u) nofun).bind ?_,
      fun seen => (Data.uint64_reads _).bind ?_, fun seen => (Data.int64_reads _).bind ?_, nofun,
      fun t ht seen => (Data.optional_reads (Data.timestamp_reads (h.creation t ht)) nofun).bind ?_,
      fun t ht seen => (Data.optional_reads (Data.timestamp_reads (h.deletion t ht)) nofun).bind ?_,
      fun _ seen => (Data.textTable_reads _).bind ?_,
      fun _ seen => (Data.listOf_reads fun o _ => o.ofData_reads).bind ?_⟩
    all_goals simp [upTo, *]
  · simp only [List.forall_mem_append, List.forall_mem_cons, Data.forall_optionalMember,
      Data.forall_tableMember, Data.forall_listMember, and_assoc] at hseen
    obtain ⟨hname, hspace, -, huid, hversion, hgeneration, -, hcreation, hdeletion, hlabels,
      howners⟩ := hseen
    rw [ne_eq, List.map_eq_nil_iff] at howners
    simp [upTo, finish, hname, hspace, hversion, hgeneration, Data.kept_some huid,
      Data.kept_some hcreation, Data.kept_some hdeletion, Data.kept hlabels, Data.kept howners,
      Data.require, ok_bind]

theorem regular_of_ofData {m : Meta} (h : ofData dialect d = .ok m) : m.Regular := by
  refine Data.members_forall (K := fun p => p.2.Regular) ?_ ?_ ?_ h
  · constructor <;> rintro t ⟨⟩
  · rintro ⟨name?, m⟩ name e s' hm h
    rw [member.eq_def] at h
    split at h <;> simp only [bind_eq_ok, Except.ok.injEq] at h
    case h_6 =>
      obtain ⟨t?, ht, rfl⟩ := h
      exact ⟨Data.forall_of_optional (fun _ _ => Data.timestamp_regular) ht, hm.deletion⟩
    case h_7 =>
      obtain ⟨t?, ht, rfl⟩ := h
      exact ⟨hm.creation, Data.forall_of_optional (fun _ _ => Data.timestamp_regular) ht⟩
    case h_10 => exact h ▸ hm
    all_goals
      obtain ⟨a, -, rfl⟩ := h
      exact ⟨hm.creation, hm.deletion⟩
  · rintro missing ⟨name?, m⟩ m' hm h
    obtain ⟨name, -, h⟩ := bind_eq_ok.mp h
    obtain rfl := Except.ok.inj h
    exact ⟨hm.creation, hm.deletion⟩

end Meta

namespace Condition

structure Regular (c : Condition) : Prop where
  update : c.lastUpdate.Regular
  transition : c.lastTransition.Regular

def upTo (c : Condition) (seen : List String) : Draft where
  name := if "type" ∈ seen then some c.name else none
  truth := if "status" ∈ seen then some c.truth else none
  reason := if "reason" ∈ seen then c.reason else ""
  message := if "message" ∈ seen then c.message else ""
  lastUpdate := if "lastUpdateTime" ∈ seen then some c.lastUpdate else none
  lastTransition := if "lastTransitionTime" ∈ seen then some c.lastTransition else none

theorem Name.lookup_text (n : Name) : Name.variants.lookup n.text = some n := by
  cases n <;> decide

theorem Truth.lookup_text (t : Truth) : Truth.variants.lookup t.text = some t := by
  cases t <;> decide

theorem ofData_reads {c : Condition} (h : c.Regular) : ReadsAs ofData c.toData c := by
  refine Data.members_read c.upTo rfl ?_ fun seen hseen => ?_
  · simp only [List.forall_mem_cons, member]
    refine ⟨fun seen => (Data.variant_reads (Name.lookup_text _)).bind ?_,
      fun seen => (Data.variant_reads (Truth.lookup_text _)).bind ?_, fun seen =>
        (Data.string_reads _).bind ?_,
      fun seen => (Data.string_reads _).bind ?_, fun seen =>
        (Data.timestamp_reads h.update).bind ?_,
      fun seen => (Data.timestamp_reads h.transition).bind ?_, nofun⟩
    all_goals simp [upTo]
  · simp only [List.forall_mem_cons] at hseen
    obtain ⟨hname, htruth, hreason, hmessage, hupdate, htransition, -⟩ := hseen
    simp [upTo, finish, hname, htruth, hreason, hmessage, hupdate, htransition,
      Data.require, ok_bind]

theorem regular_of_ofData {c : Condition} (h : ofData dialect d = .ok c) : c.Regular := by
  refine Data.members_forall
    (K := fun p => (∀ t ∈ p.lastUpdate, t.Regular) ∧ ∀ t ∈ p.lastTransition, t.Regular) ?_ ?_ ?_ h
  · constructor <;> rintro t ⟨⟩
  · rintro p name e s' ⟨hupdate, htransition⟩ h
    rw [member.eq_def] at h
    split at h <;> simp only [bind_eq_ok, Except.ok.injEq] at h
    case h_5 =>
      obtain ⟨t, ht, rfl⟩ := h
      refine ⟨?_, htransition⟩
      rintro _ ⟨⟩
      exact Data.timestamp_regular ht
    case h_6 =>
      obtain ⟨t, ht, rfl⟩ := h
      refine ⟨hupdate, ?_⟩
      rintro _ ⟨⟩
      exact Data.timestamp_regular ht
    case h_7 => exact h ▸ ⟨hupdate, htransition⟩
    all_goals
      obtain ⟨a, -, rfl⟩ := h
      exact ⟨hupdate, htransition⟩
  · rintro missing p c ⟨hupdate, htransition⟩ h
    obtain ⟨name, -, h⟩ := bind_eq_ok.mp h
    obtain ⟨truth, -, h⟩ := bind_eq_ok.mp h
    obtain ⟨t, ht, h⟩ := bind_eq_ok.mp h
    obtain ⟨t', ht', h⟩ := bind_eq_ok.mp h
    obtain rfl := Except.ok.inj h
    exact ⟨hupdate t (Data.require_eq_ok ht), htransition t' (Data.require_eq_ok ht')⟩

end Condition

end ModelTemplates
