import ModelTemplates.Proofs.Store.History
/-! Objects that are created in a store one after the other: which of them can be, and what the
store has of them then. -/
namespace ModelTemplates

/-- What is stored of an object that was created: all that was asked for, with an identity that was
drawn for it. -/
structure Object.CreatedAs {σ τ : Type} (o : Object σ τ) (drawn : Uid × Timestamp)
    (p : Object σ τ) : Prop where
  key : p.key = o.key
  spec : p.spec = o.spec
  status : p.status = o.status
  labels : p.metadata.labels = o.metadata.labels
  owners : p.metadata.owners = o.metadata.owners
  uid : p.metadata.uid = some drawn.1
  generation : p.metadata.generation = 1
  deletion : p.metadata.deletionTimestamp = none
  creation : p.metadata.creationTimestamp = some (o.metadata.creationTimestamp.getD drawn.2)

namespace Store

variable {σ τ : Type} {s t : Store σ τ} {o p : Object σ τ} {os before : List (Object σ τ)} {k : Key}
  {draw : Nat → Uid × Timestamp}

theorem createdAs_created (s : Store σ τ) (o : Object σ τ) (drawn : Uid × Timestamp) :
    o.CreatedAs drawn (s.created o drawn.1 drawn.2) := by
  constructor <;> rfl

/-- All of the objects can be created: their keys differ, and none of them is taken. -/
structure Free (s : Store σ τ) (os : List (Object σ τ)) : Prop where
  apart : (os.map Object.key).Nodup
  absent : ∀ o ∈ os, s.get? o.key = none

/-- The first object of a list whose key is taken, by what is stored or by one of those before it in
the list. -/
structure FirstClash (s : Store σ τ) (os before : List (Object σ τ)) (o : Object σ τ) : Prop where
  place : before ++ [o] <+: os
  free : s.Free before
  taken : s.get? o.key ≠ none ∨ o.key ∈ before.map Object.key

theorem free_nil (s : Store σ τ) : s.Free [] :=
  ⟨List.nodup_nil, fun _ ho => absurd ho List.not_mem_nil⟩

theorem free_cons (hp : p.key = o.key) :
    s.Free (o :: os) ↔ s.get? o.key = none ∧ (s.put p).Free os := by
  constructor
  · intro h
    obtain ⟨hhead, happart⟩ := List.nodup_cons.mp h.apart
    refine ⟨h.absent o List.mem_cons_self, happart, fun q hq => ?_⟩
    have hne : q.key ≠ p.key := by
      intro he
      exact hhead (List.mem_map.mpr ⟨q, hq, he.trans hp⟩)
    rw [put_get?, if_neg hne]
    exact h.absent q (List.mem_cons_of_mem _ hq)
  · rintro ⟨hnone, h⟩
    have hrest : ∀ q ∈ os, q.key ≠ o.key ∧ s.get? q.key = none := by
      intro q hq
      have hq := h.absent q hq
      rw [put_get?, hp] at hq
      split at hq
      · contradiction
      · next hne => exact ⟨hne, hq⟩
    constructor
    · refine List.nodup_cons.mpr ⟨fun hmem => ?_, h.apart⟩
      obtain ⟨q, hq, he⟩ := List.mem_map.mp hmem
      exact (hrest q hq).1 he
    · exact List.forall_mem_cons.mpr ⟨hnone, fun q hq => (hrest q hq).2⟩

namespace FirstClash

theorem not_free (h : s.FirstClash os before o) : ¬ s.Free os := by
  intro hfree
  obtain ⟨rest, rfl⟩ := h.place
  rcases h.taken with hstored | hearlier
  · exact hstored (hfree.absent o (by simp))
  · have hnodup := hfree.apart
    rw [List.map_append, List.map_append] at hnodup
    have hseparate := (List.nodup_append.mp (List.nodup_append.mp hnodup).1).2.2
    exact hseparate o.key hearlier o.key List.mem_cons_self rfl

theorem unique {before' : List (Object σ τ)} (h : s.FirstClash os before o)
    (h' : s.FirstClash os before' p) :
    before = before' ∧ o = p := by
  -- The one that comes earlier would stand among those that are free in front of the other.
  have hsame {as bs : List (Object σ τ)} {a b : Object σ τ} (ha : s.FirstClash os as a)
    (hb : s.FirstClash os bs b)
      (hle : as ++ [a] <+: bs ++ [b]) : as = bs ∧ a = b := by
    rcases List.prefix_concat_iff.mp hle with he | hearlier
    · obtain ⟨hbefore, hlast⟩ := List.append_inj' he rfl
      exact ⟨hbefore, List.singleton_inj.mp hlast⟩
    · have hclash : s.FirstClash bs as a := ⟨hearlier, ha.free, ha.taken⟩
      exact absurd hb.free hclash.not_free
  rcases List.prefix_or_prefix_of_prefix h.place h'.place with hle | hle
  · exact hsame h h' hle
  · obtain ⟨rfl, rfl⟩ := hsame h' h hle
    exact ⟨rfl, rfl⟩

/-- A clash past an object that is there by then is one of the whole list. -/
theorem cons (hp : s.get? p.key = none) (h : (s.put p).FirstClash os before o) :
    s.FirstClash (p :: os) (p :: before) o := by
  constructor
  · exact (List.prefix_cons_inj p).mpr h.place
  · exact (free_cons rfl).mpr ⟨hp, h.free⟩
  · rcases h.taken with hstored | hearlier
    · rw [put_get?] at hstored
      split at hstored
      · next he => exact .inr (List.mem_map.mpr ⟨p, List.mem_cons_self, he.symm⟩)
      · exact .inl hstored
    · exact .inr (List.mem_cons_of_mem _ hearlier)

end FirstClash

theorem free_or_firstClash (s : Store σ τ) (os : List (Object σ τ)) :
    s.Free os ∨ ∃ before o, s.FirstClash os before o := by
  induction os generalizing s with
  | nil => exact .inl s.free_nil
  | cons o os ih =>
    by_cases ho : s.get? o.key = none
    · rcases ih (s.put o) with hfree | ⟨before, c, hclash⟩
      · exact .inl ((free_cons rfl).mpr ⟨ho, hfree⟩)
      · exact .inr ⟨o :: before, c, hclash.cons ho⟩
    · exact .inr ⟨[], o, List.prefix_append [o] os, s.free_nil, .inl ho⟩

/-- One store has become the other by the creation of these objects, in this order, and by nothing
else. -/
structure Gains (s : Store σ τ) (draw : Nat → Uid × Timestamp) (os : List (Object σ τ))
    (t : Store σ τ) : Prop where
  kept : ∀ k p, s.get? k = some p → t.get? k = some p
  made : ∀ i (o : Object σ τ), os[i]? = some o → ∃ p : Object σ τ, t.get? o.key = some p ∧
    o.CreatedAs (draw i) p
  only : ∀ k, t.get? k ≠ none → s.get? k ≠ none ∨ k ∈ os.map Object.key
  /-- What is found of each was put there by the one write of it. -/
  wrote : ∃ ps : List (Object σ τ), ps.map some = os.map (fun o => t.get? o.key) ∧
    t = ps.foldl put s

namespace Gains

theorem nil (s : Store σ τ) (draw : Nat → Uid × Timestamp) : s.Gains draw [] s := by
  constructor
  · exact fun _ _ hk => hk
  · intro i o ho
    simp at ho
  · exact fun _ hk => .inl hk
  · exact ⟨[], rfl, rfl⟩

theorem cons (ho : s.get? o.key = none)
    (h : (s.put (s.created o (draw 0).1 (draw 0).2)).Gains (fun i => draw (i + 1)) os t) :
    s.Gains draw (o :: os) t := by
  have hcreated : t.get? o.key = some (s.created o (draw 0).1 (draw 0).2) := by
    apply h.kept
    rw [put_get?]
    exact if_pos rfl
  constructor
  · intro k p hk
    exact h.kept k p (get?_put_of_fresh ho hk)
  · intro i c hc
    cases i with
    | zero =>
      obtain rfl : o = c := Option.some.inj hc
      exact ⟨_, hcreated, s.createdAs_created o (draw 0)⟩
    | succ i => exact h.made i c hc
  · intro k hk
    rcases h.only k hk with hthere | hrest
    · rw [put_get?] at hthere
      split at hthere
      · next he => exact .inr (he ▸ List.mem_cons_self)
      · exact .inl hthere
    · exact .inr (List.mem_cons_of_mem _ hrest)
  · obtain ⟨ps, hfound, hput⟩ := h.wrote
    refine ⟨_ :: ps, ?_, hput⟩
    rw [List.map_cons, List.map_cons, hfound, hcreated]

theorem kind_eq (h : s.Gains draw os t) : t.kind = s.kind := by
  obtain ⟨ps, -, rfl⟩ := h.wrote
  clear h
  induction ps generalizing s with
  | nil => rfl
  | cons p ps ih => exact ih

/-- Every key that was taken is, and so is that of every object that was created. -/
theorem taken (h : s.Gains draw os t) (hk : s.get? k ≠ none ∨ k ∈ os.map Object.key) :
    t.get? k ≠ none := by
  rcases hk with hold | hnew
  · obtain ⟨p, hp⟩ := Option.ne_none_iff_exists'.mp hold
    rw [h.kept k p hp]
    exact Option.some_ne_none p
  · obtain ⟨o, ho, rfl⟩ := List.mem_map.mp hnew
    obtain ⟨i, hi⟩ := List.mem_iff_getElem?.mp ho
    obtain ⟨p, hp, -⟩ := h.made i o hi
    rw [hp]
    exact Option.some_ne_none p

/-- Whatever is new has the identifier that was drawn for its place in the list. -/
theorem drawn (h : s.Gains draw os t) (hold : s.get? k = none) (hnew : t.get? k = some p) :
    ∃ (i : Nat) (hi : i < os.length), os[i].key = k ∧ p.metadata.uid = some (draw i).1 := by
  have hthere : t.get? k ≠ none := by
    rw [hnew]
    exact Option.some_ne_none p
  rcases h.only k hthere with htaken | hmem
  · contradiction
  · obtain ⟨o, ho, rfl⟩ := List.mem_map.mp hmem
    obtain ⟨i, hi, rfl⟩ := List.mem_iff_getElem.mp ho
    obtain ⟨q, hq, hcreated⟩ := h.made i os[i] (List.getElem?_eq_getElem hi)
    obtain rfl : p = q := Option.some.inj (hnew.symm.trans hq)
    exact ⟨i, hi, rfl, hcreated.uid⟩

end Gains
end Store
end ModelTemplates
