import ModelTemplates.Proofs.Controller.Deliveries
import ModelTemplates.Proofs.Handler.Steady
import ModelTemplates.Proofs.Store.Origin
/-! One turn of a controller with nobody else at work. Handlers are called one after the other, each
with the object that those before it leave, and none of them stands in the way of the next. -/
namespace ModelTemplates

variable {σ τ : Type} {side : Side σ τ} {s s₁ : FaultyWorld} {k : Key} {o : Object σ τ} {m : Moment}
  {c : Controller σ τ}

namespace Controller

variable {wiring : Wiring FaultyWorld σ τ}
  {hs : List (Moment → Key → Object σ τ → FaultyWorld → Verdict (Object σ τ) × FaultyWorld)}

/-- Every handler that changes objects passes on what is stored, and no other one touches it or
breaks off. -/
structure Wiring.Steady (side : Side σ τ) (wiring : Wiring FaultyWorld σ τ) : Prop where
  change : ∀ h ∈ wiring.change, ∀ m k o s, side.Holds k o s →
    (h m k o s).1.Unrivalled ∧ side.Holds k (passedOn o (h m k o s).1) (h m k o s).2
  remove : ∀ h ∈ wiring.remove, ∀ m j t s, brokeOff (h m j t s).1 = false ∧
    ∀ k o, side.Holds k o s → side.Holds k o (h m j t s).2

/-- What a turn of a worker comes to that has the key to itself: no handler meets a conflict, and
the controller knows the object as it is stored, unless a handler broke off, so that the turn never
came to its end. That happens only in the case `spent`. -/
structure Unrivalled (wiring : Wiring FaultyWorld σ τ) (side : Side σ τ) (m : Moment) (k : Key)
    (c : Controller σ τ) (s : FaultyWorld) (spent : Prop) : Prop where
  calls : ∀ call ∈ (delivery wiring m k c s).calls, call.2.Unrivalled
  ends : (∃ call ∈ (delivery wiring m k c s).calls, brokeOff call.2 = true) → spent
  known : (∃ call ∈ (delivery wiring m k c s).calls, brokeOff call.2 = true) ∨
    ∃ o, (process wiring m k c s).1.known.find? k = some o ∧
      (side.store (process wiring m k c s).2.world.stores).get? k = some o

end Controller

namespace Manager

open Controller

/-- A template and a version of one name, in a store where the next write of a version fails. -/
def failing : FaultyWorld where
  world :=
    { World.empty with stores :=
      ⟨(Store.empty .template).after [.create ⟨Meta.named "models" "llama", .empty,
        .empty⟩ ⟨1⟩ default], (Store.empty .version).after [.create
          ⟨Meta.named "models" "llama", { VersionSpec.empty with templateName := "llama" },
            .empty⟩ ⟨2⟩ default]⟩ }
  faults := [⟨.version, .update, 0, 1, .backend "out of space"⟩]

end Manager
end ModelTemplates
