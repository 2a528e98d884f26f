import ModelTemplates.Proofs.Controller.Rules
/-! A controller of a store from which nothing is deleted. It buries nobody, not even when it misses
events and has to list the store anew. -/
namespace ModelTemplates

variable {ϱ κ σ τ : Type} [Preorder κ] {c c' : Controller σ τ} {d : Store σ τ}
  {o p : Object σ τ} {k : Key}

namespace Controller

/-- What the controller knows is stored, there is no tombstone, and the watch tells of stored
objects only. -/
structure Intact (c : Controller σ τ) (d : Store σ τ) : Prop where
  known : ∀ o ∈ c.known.values, (d.get? o.key).isSome = true
  tombstones : c.tombstones = .empty
  watch : ∀ e ∈ d.watch.kept, ∃ o, e = .applied o ∧ (d.get? o.key).isSome = true

theorem isSome_put (o : Object σ τ) (h : (d.get? k).isSome = true) :
    ((d.put o).get? k).isSome = true := by
  rw [Store.put_get?]
  split
  · rfl
  · exact h

theorem Intact.put (h : c.Intact d) (o : Object σ τ) : c.Intact (d.put o) := by
  refine ⟨fun p hp => isSome_put o (h.known p hp), h.tombstones, fun e he => ?_⟩
  have hmem : e ∈ .applied o :: d.watch.kept := List.mem_of_mem_take he
  rcases List.mem_cons.mp hmem with rfl | hold
  · exact ⟨o, rfl, by rw [Store.put_get?, if_pos rfl]; rfl⟩
  · obtain ⟨p, hp, hstored⟩ := h.watch e hold
    exact ⟨p, hp, isSome_put o hstored⟩

theorem Intact.congr (h : c.Intact d) (hk : c'.known = c.known)
    (ht : c'.tombstones = c.tombstones) : c'.Intact d :=
  ⟨hk ▸ h.known, ht.trans h.tombstones, h.watch⟩

theorem Intact.insert (h : c.Intact d) (k : Key) (ho : (d.get? o.key).isSome = true) :
    ({ c with known := c.known.insert k o } : Controller σ τ).Intact d := by
  refine ⟨fun p hp => ?_, h.tombstones, h.watch⟩
  obtain ⟨j, hj⟩ := (Table.mem_values_iff _ _).mp hp
  rw [Table.find?_insert] at hj
  split at hj
  · obtain rfl := Option.some.inj hj
    exact ho
  · exact h.known p ((Table.mem_values_iff _ _).mpr ⟨j, hj⟩)

theorem Intact.meet (h : c.Intact d) (ho : (d.get? o.key).isSome = true) : (c.meet o).Intact d :=
  (h.insert o.key ho).congr rfl rfl

theorem Intact.meetAll (h : c.Intact d) {os : List (Object σ τ)}
    (ho : ∀ o ∈ os, (d.get? o.key).isSome = true) :
    (os.foldl Controller.meet c).Intact d := by
  induction os generalizing c with
  | nil => exact h
  | cons o os ih =>
    rw [List.forall_mem_cons] at ho
    exact ih (h.meet ho.1) ho.2

theorem Intact.reconcileWith (h : c.Intact d) (hk : d.Keyed) (now : Timestamp) :
    (c.reconcileWith now d.all).Intact d := by
  have hgone : (c.known.values.filter fun o => !(d.all.any fun l => l.key = o.key)) = [] := by
    rw [List.filter_eq_nil_iff]
    intro o ho
    obtain ⟨p, hp⟩ := Option.isSome_iff_exists.mp (h.known o ho)
    have hlisted : p ∈ d.all := Store.mem_all_iff.mpr ⟨_, hp⟩
    have hsame : p.key = o.key := hk _ _ hp
    simp only [Bool.not_eq_true', Bool.not_eq_false, List.any_eq_true, decide_eq_true_eq]
    exact ⟨p, hlisted, hsame⟩
  unfold Controller.reconcileWith
  simp only [hgone, List.map_nil, List.foldl_nil]
  refine h.meetAll fun o ho => ?_
  obtain ⟨k, hstored⟩ := Store.mem_all_iff.mp ho
  rw [hk.get? hstored]
  rfl

theorem Intact.act (h : c.Intact d) (k : Key) {a : ControllerAct σ τ}
    (ha : ∀ o, a = .remember o → (d.get? o.key).isSome = true) : (a.act k c).2.Intact d := by
  have hnone : c.tombstones.erase k = .empty := by
    rw [h.tombstones]
    rfl
  cases a with
  | remember o => exact h.insert k (ha o rfl)
  | lose =>
    refine ⟨fun p hp => ?_, h.tombstones, h.watch⟩
    obtain ⟨j, hj⟩ := (Table.mem_values_iff _ _).mp hp
    change (c.known.erase k).find? j = some p at hj
    rw [Table.find?_erase] at hj
    split at hj
    · contradiction
    · exact h.known p ((Table.mem_values_iff _ _).mpr ⟨j, hj⟩)
  | clear uid =>
    simp only [ControllerAct.act]
    split
    · exact ⟨h.known, hnone, h.watch⟩
    · exact h
  | discard => exact ⟨h.known, hnone, h.watch⟩
  | retry m => exact h.congr (c.retry_known m k) (c.retry_tombstones m k)
  | abandon => exact h.congr rfl rfl
  | forget => exact h.congr rfl rfl
  | lookUp => exact h

variable {ω : Type} {wiring : Wiring ω σ τ} {store : ω → Store σ τ} {w w' : ω} {m : Moment}

theorem Intact.feed (h : c.Intact (store w)) (hs : wiring.Serves store) (hk : (store w).Keyed)
    (hf : feedOne? wiring m c w = some (c', w')) : c'.Intact (store w) := by
  unfold feedOne? at hf
  rw [hs.watch] at hf
  split at hf
  · next e p hr =>
    obtain ⟨rfl, -⟩ := Prod.mk.inj (Option.some.inj hf)
    have hkept : e ∈ (store w).watch.kept := by
      simp only [Channel.receive] at hr
      split at hr
      · simp at hr
      · split at hr
        · next x hx =>
          obtain ⟨rfl, -⟩ : x = e ∧ _ = p := by simpa using hr
          exact List.mem_reverse.mp (List.mem_of_getElem? hx)
        · split at hr <;> simp at hr
    obtain ⟨o, rfl, ho⟩ := h.watch e hkept
    have hplace : ({ c with position := p } : Controller σ τ).Intact (store w) := h.congr rfl rfl
    exact hplace.meet ho
  · next n p hr =>
    rw [relist, hs.list] at hf
    obtain ⟨rfl, -⟩ := Prod.mk.inj (Option.some.inj hf)
    have hplace : ({ c with position := p } : Controller σ τ).Intact (store w) := h.congr rfl rfl
    exact hplace.reconcileWith hk m.time
  · contradiction
  · contradiction

theorem intact_start (hs : wiring.Serves store) (hk : (store w).Keyed)
    (hwatch : ∀ e ∈ (store w).watch.kept, ∃ o, e = .applied o ∧
      ((store w).get? o.key).isSome = true)
    {retry : RetryPolicy} {e : Option StoreError}
    (h : Controller.start wiring m (.empty retry) w = (e, c, w')) :
    c.Intact (store w) := by
  rw [Controller.start, relist, hs.list] at h
  have hempty : ({ (empty retry : Controller σ τ) with position := (wiring.watch w).subscribe } :
      Controller σ τ).Intact (store w) :=
    ⟨fun o ho => absurd ho List.not_mem_nil, rfl, hwatch⟩
  obtain ⟨-, h⟩ := Prod.mk.inj h
  obtain ⟨rfl, -⟩ := Prod.mk.inj h
  exact hempty.reconcileWith hk m.time

end Controller

namespace ControllerWorkers

variable {R : Key → Rules ϱ κ σ τ} {handlers : Handlers σ τ} {wiring : Controller.Wiring World σ τ}
  {b b' : ControllerWorkers σ τ} {store : World → Store σ τ} {w w' : World} {ρ : Key → ϱ}
  {x : Key → κ} {asked : Option (Key × Request)}

/-- No step buries anybody as long as workers remember only what is stored. -/
theorem intact_step (h : b.controller.Intact (store w)) (hs : Step handlers wiring b w asked b' w')
    (hserves : wiring.Serves store) (hk : (store w).Keyed) (hb : b.Obeys R ρ x)
    (hfit : ∀ k o, (R k).fit (x k) o → ((store w).get? o.key).isSome = true) :
    b'.controller.Intact (store w) := by
  cases hs with
  | feed hf => exact h.feed hserves hk hf
  | turn hj ht =>
    cases ht with
    | ask _ => exact h
    | clock m => exact h
    | @own a next =>
      have hworks := hb.works _ (hj ▸ List.mem_append_right _ List.mem_cons_self)
      exact h.act _ fun o ho => hfit _ o (hworks.1 o ho)
  | _ => exact h.congr rfl rfl

end ControllerWorkers
end ModelTemplates
