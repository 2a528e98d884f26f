import ModelTemplates.Faults
/-! What stores that fail on demand can answer. A call that fails leaves everything as it was, and
other calls are answered as they would be without faults. -/
namespace ModelTemplates

namespace Fault

variable {kind : Kind} {fs : List Fault} {P : Effect → Prop}

theorem next_effects (kind : Kind) (method : Method) (h : ∀ f ∈ fs, P f.effect) :
    (∀ e, (next kind method fs).1 = some e → P e) ∧ ∀ f ∈ (next kind method fs).2, P f.effect := by
  induction fs with
  | nil => simp [next]
  | cons f fs ih =>
    rw [List.forall_mem_cons] at h
    obtain ⟨hf, hfs⟩ := h
    obtain ⟨heffect, hrest⟩ := ih hfs
    unfold next
    split
    · split
      · simpa using ⟨hf, hfs⟩
      · simpa using ⟨hf, hfs⟩
      · simpa using ⟨hf, hfs⟩
      · exact ⟨heffect, hrest⟩
    · simpa using ⟨heffect, hf, hrest⟩

theorem isConflict_of_error? {effect : Effect} {key : Key} {e : StoreError} (h : effect ≠ .conflict)
    (he : effect.error? kind key = some e) : e.isConflict = false := by
  cases effect with
  | conflict => contradiction
  | notFound => cases he; rfl
  | alreadyExists => cases he; rfl
  | backend text => cases he; rfl
  | withoutUid => contradiction
  | emptyList => contradiction

end Fault

namespace Request

def writes : Request → Bool
  | updateTemplate _ => true
  | updateTemplateStatus _ => true
  | updateVersion _ => true
  | updateVersionStatus _ => true
  | _ => false

def unread? : (r : Request) → r.Answer → Option StoreError
  | template _, .error e => some e
  | version _, .error e => some e
  | templates .., .error e => some e
  | versions .., .error e => some e
  | _, _ => none

end Request

theorem World.answer_stores {r : Request} (h : r.writes = false) (w : World) :
    (w.answer r).2.stores = w.stores := by
  cases r <;> first | rfl | contradiction

namespace FaultyWorld

variable {s : FaultyWorld} {r : Request}

/-- No fault pretends that somebody else has written. -/
def Calm (s : FaultyWorld) : Prop := ∀ f ∈ s.faults, f.effect ≠ .conflict

theorem Calm.answer (h : s.Calm) (r : Request) : (answer r s).2.Calm := by
  have hnext {kind : Kind} {method : Fault.Method} :
      ∀ f ∈ (Fault.next kind method s.faults).2, f.effect ≠ .conflict :=
    (Fault.next_effects kind method (P := (· ≠ .conflict)) h).2
  unfold FaultyWorld.answer
  split
  · exact h
  · simp only
    split
    · exact hnext
    · split <;> exact hnext

theorem answer_stores (h : r.writes = false) (s : FaultyWorld) :
    (answer r s).2.world.stores = s.world.stores := by
  have hplain := World.answer_stores h s.world
  unfold answer
  split
  · exact hplain
  · simp only
    split
    · exact hplain
    · split
      · rfl
      · exact hplain

theorem unread?_answer (h : r.writes = false) (s : FaultyWorld) :
    r.unread? (answer r s).1 =
      r.call?.bind fun call =>
        (Fault.next call.1 call.2.1 s.faults).1.bind (·.error? call.1 call.2.2) := by
  cases r with
  | template k =>
    simp only [answer, Request.call?, Option.bind_some]
    cases (Fault.next .template .get s.faults).1 with
    | none => rfl
    | some effect => cases effect <;> rfl
  | version k =>
    simp only [answer, Request.call?, Option.bind_some]
    cases (Fault.next .version .get s.faults).1 with
    | none => rfl
    | some effect => cases effect <;> rfl
  | templates space selector =>
    simp only [answer, Request.call?, Option.bind_some]
    cases (Fault.next .template .list s.faults).1 with
    | none => rfl
    | some effect => cases effect <;> rfl
  | versions space selector =>
    simp only [answer, Request.call?, Option.bind_some]
    cases (Fault.next .version .list s.faults).1 with
    | none => rfl
    | some effect => cases effect <;> rfl
  | updateTemplate t => contradiction
  | updateTemplateStatus t => contradiction
  | updateVersion v => contradiction
  | updateVersionStatus v => contradiction
  | _ => rfl

theorem Calm.unread (h : s.Calm) (hr : r.writes = false) {e : StoreError}
    (he : r.unread? (FaultyWorld.answer r s).1 = some e) : e.isConflict = false := by
  rw [unread?_answer hr] at he
  obtain ⟨call, -, he⟩ := Option.bind_eq_some_iff.mp he
  obtain ⟨effect, heffect, he⟩ := Option.bind_eq_some_iff.mp he
  exact Fault.isConflict_of_error?
    ((Fault.next_effects _ _ (P := (· ≠ .conflict)) h).1 effect heffect) he

def attempt {α : Type} (s : FaultyWorld) (kind : Kind) (method : Fault.Method) (key : Key)
    (plain : Except StoreError α × World) : Except StoreError α × FaultyWorld :=
  match (Fault.next kind method s.faults).1.bind (·.error? kind key) with
  | some e => (.error e, { s with faults := (Fault.next kind method s.faults).2 })
  | none => (plain.1, ⟨plain.2, (Fault.next kind method s.faults).2⟩)

/-- What a calm store refuses is no conflict; otherwise the write is done as it would be without
faults. -/
theorem Calm.attempt {α : Type} (h : s.Calm) (kind : Kind) (method : Fault.Method) (key : Key)
    (plain : Except StoreError α × World) :
    (s.attempt kind method key plain).2.Calm ∧
      ((s.attempt kind method key plain).1 = plain.1 ∧
        (s.attempt kind method key plain).2.world = plain.2 ∨
        ∃ e, (s.attempt kind method key plain).1 = .error e ∧ e.isConflict = false ∧
          (s.attempt kind method key plain).2.world = s.world) := by
  obtain ⟨heffect, hrest⟩ := Fault.next_effects kind method (P := (· ≠ .conflict)) h
  unfold FaultyWorld.attempt
  split
  · next e he =>
    obtain ⟨effect, hnext, he⟩ := Option.bind_eq_some_iff.mp he
    exact ⟨hrest, .inr ⟨e, rfl, Fault.isConflict_of_error? (heffect effect hnext) he, rfl⟩⟩
  · exact ⟨hrest, .inl ⟨rfl, rfl⟩⟩

end FaultyWorld
end ModelTemplates
