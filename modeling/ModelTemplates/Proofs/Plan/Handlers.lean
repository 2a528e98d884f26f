import ModelTemplates.World
/-! Handlers at work in one world. Between two requests of one of them come any number of those of
others. -/
namespace ModelTemplates

structure VersionHandlers where
  world : World
  /-- What the handlers still have to do. -/
  plans : List (Plan (Verdict Version))
  /-- Every state that a version was stored in. -/
  seen : List Version

namespace VersionHandlers

def note (s : VersionHandlers) (w : World) : VersionHandlers :=
  { s with world := w, seen := w.stores.versions.objects.values ++ s.seen }

def join (s : VersionHandlers) (p : Plan (Verdict Version)) : VersionHandlers :=
  { s with plans := p :: s.plans }

/-- Only a lock that is held makes a request wait. -/
def Free (w : World) : Request → Prop
  | .lock k => k ∉ w.locked
  | _ => True

instance decidableFree (w : World) : (r : Request) → Decidable (Free w r)
  | .lock k => inferInstanceAs (Decidable (k ∉ w.locked))
  | .template _ | .version _ | .templates .. | .versions ..
  | .updateTemplate _ | .updateTemplateStatus _ | .updateVersion _ | .updateVersionStatus _
  | .unlock _ | .latest .. | .advance .. | .removeEntry .. | .publish _ | .enqueue _ =>
    isTrue trivial

inductive Turn (s : VersionHandlers) : VersionHandlers → Prop where
  | request {before after : List (Plan (Verdict Version))} {r : Request}
      {next : r.Answer → Plan (Verdict Version)} :
      s.plans = before ++ .ask r next :: after → Free s.world r →
      Turn s { s.note (World.answer r s.world).2 with
        plans := before ++ next (World.answer r s.world).1 :: after }
  | leave {before after : List (Plan (Verdict Version))} {a : Verdict Version} :
      s.plans = before ++ .done a :: after → Turn s { s with plans := before ++ after }

end VersionHandlers
end ModelTemplates
