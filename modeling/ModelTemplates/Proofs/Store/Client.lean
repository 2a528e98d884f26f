import ModelTemplates.Proofs.Store.History
/-! What clients ask of a store, and what each request leaves behind. -/
namespace ModelTemplates.Store

/-- A request of a client. The store draws the identifier of a new object. -/
inductive Call (σ τ : Type) where
  | create (o : Object σ τ) (uid : Uid) (now : Timestamp)
  | update (o : Object σ τ)
  | delete (k : Key) (now : Timestamp)

variable {σ τ : Type} [DecidableEq σ] {s t : Store σ τ} {c : Call σ τ}

def Call.drawn : Call σ τ → List Uid
  | .create _ uid _ => [uid]
  | .update _ => []
  | .delete _ _ => []

def serve (s : Store σ τ) : Call σ τ → Store σ τ
  | .create o uid now => match s.create o uid now with | .ok (_, t) => t | .error _ => s
  | .update o => match s.update o with | .ok (_, t) => t | .error _ => s
  | .delete k now => match s.delete k now with | .ok t => t | .error _ => s

def leaving (s : Store σ τ) : Call σ τ → List (Object σ τ)
  | .create .. => []
  | .update _ => []
  | .delete k _ => (s.get? k).toList

inductive Served (s : Store σ τ) : Call σ τ → Store σ τ → Prop where
  | refused (c : Call σ τ) : Served s c s
  | created {o uid now} :
      s.get? o.key = none → Served s (.create o uid now) (s.put (s.created o uid now))
  | updated {o c} : s.fenced o = .ok c → Served s (.update o) (s.put (s.updated c o))
  | deleted {k c now} : s.get? k = some c → Served s (.delete k now) (s.without c now)

theorem served (h : s.Keyed) (c : Call σ τ) : Served s c (s.serve c) := by
  cases c with
  | create o uid now =>
    simp only [serve]
    cases he : s.create o uid now with
    | error e => exact .refused _
    | ok r =>
      obtain ⟨p, t⟩ := r
      obtain ⟨hn, -, rfl⟩ := create_eq_ok.mp he
      exact .created hn
  | update o =>
    simp only [serve]
    cases he : s.update o with
    | error e => exact .refused _
    | ok r =>
      obtain ⟨p, t⟩ := r
      obtain ⟨c, hf, -, rfl⟩ := update_eq_ok.mp he
      exact .updated hf
  | delete k now =>
    simp only [serve]
    cases he : s.delete k now with
    | error e => exact .refused _
    | ok t => obtain ⟨c, hk, ht⟩ := (delete_eq_ok h).mp he; exact ht ▸ .deleted hk

namespace Served

theorem keyed (hs : Served s c t) (h : s.Keyed) : t.Keyed := by
  cases hs with
  | refused => exact h
  | created _ => exact h.put _
  | updated _ => exact h.put _
  | deleted _ => exact h.without _ _

theorem recorded {past : List (Object σ τ)} (hs : Served s c t) (h : s.Recorded past)
    (hr : s.HasRoom) :
    t.Recorded (t.objects.values ++ past) := by
  cases hs with
  | refused => exact h.note
  | created _ => exact h.note_put hr rfl
  | updated _ => exact h.note_put hr rfl
  | deleted _ => exact (h.without _ _).note

theorem identified {issued : List Uid} (hs : Served s c t) (h : s.Identified issued)
    (hd : ∀ uid ∈ c.drawn, uid ∉ issued) : t.Identified (c.drawn ++ issued) := by
  cases hs with
  | refused => exact h.mono (List.subset_append_right _ _)
  | created _ => exact h.put_fresh (hd _ List.mem_cons_self) rfl
  | updated hf => exact h.put_same (fenced_eq_ok.mp hf).1 rfl
  | deleted _ => exact h.without _ _

/-- A stored object was there before with its status, or has just been created. -/
theorem same_or_drawn {k : Key} {o : Object σ τ} (hs : Served s c t) (hk : t.get? k = some o) :
    (∃ p, s.get? k = some p ∧ o.metadata.uid = p.metadata.uid ∧ o.status = p.status) ∨
      ∃ uid ∈ c.drawn, o.metadata.uid = some uid := by
  cases hs with
  | refused => exact .inl ⟨o, hk, rfl, rfl⟩
  | created _ =>
    rw [put_get?] at hk
    split at hk
    · obtain rfl := Option.some.inj hk
      exact .inr ⟨_, List.mem_cons_self, rfl⟩
    · exact .inl ⟨o, hk, rfl, rfl⟩
  | @updated _ p hf =>
    rw [put_get?] at hk
    split at hk
    · next e =>
      obtain rfl := Option.some.inj hk
      exact .inl ⟨p, e ▸ (fenced_eq_ok.mp hf).1, rfl, rfl⟩
    · exact .inl ⟨o, hk, rfl, rfl⟩
  | deleted _ =>
    rw [without_get?] at hk
    split at hk
    · contradiction
    · exact .inl ⟨o, hk, rfl, rfl⟩

end Served

theorem mem_leaving {o : Object σ τ} (h : s.Keyed) (ho : o ∈ s.leaving c) :
    s.get? o.key = some o ∧ (s.serve c).get? o.key = none := by
  cases c with
  | create => contradiction
  | update => contradiction
  | delete k now =>
    have hk : s.get? k = some o := Option.mem_toList.mp ho
    refine ⟨h.get? hk, ?_⟩
    simp only [serve, (delete_eq_ok h).mpr ⟨o, hk, rfl⟩, without_get?, if_true]

end ModelTemplates.Store
