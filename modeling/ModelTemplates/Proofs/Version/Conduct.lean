import ModelTemplates.Proofs.Template.Prospect
import ModelTemplates.Proofs.Version.Delivery
/-! The work on versions changes what templates make of their defaults only when it gives a number,
and then it does not end before the template of the version is to be looked at again. -/
namespace ModelTemplates.Version

open Processing

variable {past more : List Version} {debt : Option Key} {k : Key} {v p : Version} {t : Template}
  {L : Processing VersionSpec VersionStatus} {d d' : VersionStore} {r : Request}

/-- A request that leaves numbers and counts alone. What it writes, it writes over a version of the
past. -/
def Harmless (past : List Version) : Request → Prop
  | .template _ => True
  | .version _ => True
  | .lock _ => True
  | .unlock _ => True
  | .latest .. => True
  | .publish _ => True
  | .updateVersion x => ∃ p ∈ past, x.metadata.resourceVersion = p.metadata.resourceVersion ∧
      x.spec = p.spec ∧ p.assigned = false
  | .updateVersionStatus x => ∃ p ∈ past, x.metadata.resourceVersion = p.metadata.resourceVersion ∧
      x.assigned = p.assigned ∧ x.status.version = p.status.version
  | _ => False

/-- Work that owes a template another look from the moment a number is stored. Only then the number
is counted. -/
inductive Conduct : List Version → Option Key → Processing VersionSpec VersionStatus → Prop where
  | ended {past : List Version} : Conduct past none .ended
  | own {past : List Version} {debt : Option Key} {a : ControllerAct VersionSpec VersionStatus}
      {next : Option Version → Processing VersionSpec VersionStatus} :
      (∀ o, Conduct past debt (next o)) → Conduct past debt (.own a next)
  | clock {past : List Version} {debt : Option Key}
      {next : Moment → Processing VersionSpec VersionStatus} :
      (∀ m, Conduct past debt (next m)) → Conduct past debt (.clock next)
  | plain {past : List Version} {debt : Option Key} {r : Request}
      {next : r.Answer → Processing VersionSpec VersionStatus} :
      Harmless past r → (∀ a more, past ⊆ more → r.Truthful more a → Conduct more debt (next a)) →
      Conduct past debt (.ask r next)
  | number {past : List Version} {p : Version} {n : UInt32} {now : Timestamp}
      {next : Except StoreError Version → Processing VersionSpec VersionStatus} :
      p ∈ past → p.assigned = false →
      p.metadata.labels.find? templateLabel = some p.spec.templateName →
      (∀ e more, past ⊆ more → Conduct more none (next (.error e))) →
      (∀ o more, past ⊆ more → o ∈ more → Conduct more (some p.templateKey) (next (.ok o))) →
      Conduct past none (.ask (.updateVersionStatus (p.numbered n now)) next)
  | count {past : List Version} {k : Key} {owner : Option Uid}
      {next : Option UInt32 → Processing VersionSpec VersionStatus} :
      (∀ n more, past ⊆ more → Conduct more (some k) (next n)) →
      Conduct past (some k) (.ask (.advance k owner) next)
  | tell {past : List Version} {k : Key} {next : Unit → Processing VersionSpec VersionStatus} :
      (∀ more, past ⊆ more → Conduct more none (next ())) →
      Conduct past (some k) (.ask (.enqueue k) next)

theorem Harmless.mono (hm : past ⊆ more) (h : Harmless past r) : Harmless more r := by
  cases r with
  | updateVersion x => obtain ⟨p, hp, h⟩ := h; exact ⟨p, hm hp, h⟩
  | updateVersionStatus x => obtain ⟨p, hp, h⟩ := h; exact ⟨p, hm hp, h⟩
  | _ => exact h

theorem Conduct.mono (h : Conduct past debt L) (hm : past ⊆ more) : Conduct more debt L := by
  induction h generalizing more with
  | ended => exact .ended
  | own _ ih => exact .own fun o => ih o hm
  | clock _ ih => exact .clock fun m => ih m hm
  | plain hr h _ =>
    exact .plain (hr.mono hm) fun a more' hm' hs => h a more' (List.Subset.trans hm hm') hs
  | number hp ha hl he ho _ _ =>
    exact .number (hm hp) ha hl (fun e more' hm' => he e more' (List.Subset.trans hm hm'))
      fun o more' hm' ho' => ho o more' (List.Subset.trans hm hm') ho'
  | count h _ => exact .count fun n more' hm' => h n more' (List.Subset.trans hm hm')
  | tell h _ => exact .tell fun more' hm' => h more' (List.Subset.trans hm hm')

theorem Harmless.prospect (hr : Harmless past r) (h : d.Recorded past) (hl : r.Leaves d d')
    (t : Template) :
    t.prospect d' = t.prospect d := by
  cases hl with
  | same => rfl
  | @updated x c hf =>
    obtain ⟨p, hp, hv, hspec, ha⟩ := hr
    obtain rfl := h.fenced hp hv hf
    have hc : d.get? x.key = some c := (Store.fenced_eq_ok.mp hf).1
    have hspace : c.metadata.space = x.metadata.space := congrArg Key.space (h.keyed _ _ hc)
    refine Template.prospect_put_unassigned (v := c) hc ?_ ha ha
    change (⟨x.metadata.space, x.spec.templateName⟩ : Key) = ⟨c.metadata.space, c.spec.templateName⟩
    rw [hspec, hspace]
  | @restated x c hf =>
    obtain ⟨p, hp, hv, ha, hn⟩ := hr
    obtain rfl := h.fenced hp hv hf
    exact Template.prospect_restated (h.keyed.get? (Store.fenced_eq_ok.mp hf).1) ha hn

/-- A number that is given leaves the prospects of all other templates as they were. -/
theorem numbered_prospect {n : UInt32} {now : Timestamp} (hp : p ∈ past) (ha : p.assigned = false)
    (hlabel : p.metadata.labels.find? templateLabel = some p.spec.templateName)
    (h : d.Recorded past) (hl : (Request.updateVersionStatus (p.numbered n now)).Leaves d d')
    (hk : t.key ≠ p.templateKey) :
    t.prospect d' = t.prospect d := by
  cases hl with
  | same => rfl
  | @restated x c hf =>
    obtain rfl := h.fenced hp rfl hf
    exact Template.prospect_numbered (Store.fenced_eq_ok.mp hf).1 ha hlabel hk

variable {f : Verdict Version → Processing VersionSpec VersionStatus} {now : Timestamp}

def Goes (past : List Version) (f : Verdict Version → Processing VersionSpec VersionStatus) :
    Prop :=
  ∀ a more, past ⊆ more → (∀ o, a = .ok (.updated o) → o ∈ more) → Conduct more none (f a)

theorem Goes.mono (h : Goes past f) (hm : past ⊆ more) : Goes more f :=
  fun a more' hm' ho => h a more' (List.Subset.trans hm hm') ho

theorem Goes.unchanged (h : Goes past f) : Conduct past none (f (.ok .unchanged)) :=
  h _ past (List.Subset.refl _) fun o ho => by simp at ho

theorem Goes.failed (h : Goes past f) (e : ReconcileError) : Conduct past none (f (.error e)) :=
  h _ past (List.Subset.refl _) fun o ho => by simp at ho

theorem conduct_commit {e : Event} (hh : Harmless past r) {g : r.Answer → Except StoreError Version}
    (hg : ∀ a more o, r.Truthful more a → g a = .ok o → o ∈ more) (hf : Goes past f) :
    Conduct past none
      (follow (.commit (.ask r fun a => .done (g a)) (.request (.publish e))) f) := by
  unfold Plan.commit
  rw [follow_bind]
  refine .plain hh fun a more hm hs => ?_
  simp only [follow]
  cases ha : g a with
  | error e => exact (hf.mono hm).failed _
  | ok o =>
    have ho : o ∈ more := hg a more o hs ha
    refine .plain (r := .publish e) trivial fun _ more' hm' _ =>
      hf _ _ (List.Subset.trans hm hm') fun o' ho' => ?_
    obtain rfl : o = o' := by simpa using ho'
    exact hm' ho

theorem conduct_link (hv : v ∈ past) (ha : v.assigned = false) (hf : Goes past f) :
    Conduct past none (follow (v.link t now) f) := by
  unfold link
  split
  · exact hf.failed _
  · refine conduct_commit (r := .updateVersion _) (g := id) ⟨v, hv, ?_, ?_, ha⟩
        (fun a more o ht => ht o) hf
    · exact linked_resourceVersion _ _ _
    · exact linked_spec _ _ _

theorem conduct_record {n : UInt32} (hv : v ∈ past) (ha : v.assigned = false)
    (hk : v.templateKey = t.key) (hl : v.linkedTo t = true) (hf : Goes past f) :
    Conduct past none (follow (v.record t n now) f) := by
  have hlabel : v.metadata.labels.find? templateLabel = some v.spec.templateName := by
    rw [linkedTo, Bool.and_eq_true, decide_eq_true_eq] at hl
    rw [hl.1, ← show v.spec.templateName = t.metadata.name from congrArg Key.name hk]
  refine .number hv ha hlabel (fun e p₁ h₁ => ?_) fun o p₁ h₁ ho => ?_
  · refine .plain (r := .unlock t.key) trivial fun _ p₂ h₂ _ => ?_
    exact (hf.mono (List.Subset.trans h₁ h₂)).failed _
  · rw [hk]
    refine .count fun _ p₂ h₂ => .plain (r := .unlock t.key) trivial fun _ p₃ h₃ _ =>
      .tell fun p₄ h₄ => ?_
    refine .plain (r := .publish _) trivial fun _ p₅ h₅ _ =>
      hf _ _ (fun x hx => ?_) fun o' ho' => ?_
    · exact h₅ (h₄ (h₃ (h₂ (h₁ hx))))
    · obtain rfl : o = o' := by simpa using ho'
      exact h₅ (h₄ (h₃ (h₂ ho)))

theorem conduct_assign (hv : v ∈ past) (ha : v.assigned = false) (hk : v.templateKey = t.key)
    (hl : v.linkedTo t = true) (hf : Goes past f) :
    Conduct past none (follow (v.assign t now) f) := by
  refine .plain (r := .lock t.key) trivial fun _ p₁ h₁ _ => ?_
  refine .plain (r := .latest t.key t.metadata.uid) trivial fun latest p₂ h₂ _ => ?_
  have hpast : past ⊆ p₂ := List.Subset.trans h₁ h₂
  change Conduct p₂ none (follow (v.recordAfter t latest now) f)
  unfold recordAfter
  cases Counter.next? latest with
  | none =>
    refine .plain (r := .unlock t.key) trivial fun _ p₃ h₃ _ => ?_
    exact (hf.mono (List.Subset.trans hpast h₃)).failed _
  | some n => exact conduct_record (hpast hv) ha hk hl (hf.mono hpast)

theorem conduct_number (hv : v ∈ past) (hf : Goes past f) :
    Conduct past none (follow (v.number now) f) := by
  unfold number
  split
  · exact hf.unchanged
  · next hg =>
    rw [Bool.or_eq_true, not_or, Bool.not_eq_true, Bool.not_eq_true] at hg
    refine .plain (r := .template v.templateKey) trivial fun a more hm ht => ?_
    rcases a with e | _ | t
    · exact (hf.mono hm).failed _
    · exact (hf.mono hm).failed _
    · change Conduct more none (follow (if v.linkedTo t then v.assign t now else v.link t now) f)
      split
      · next hl => exact conduct_assign (hm hv) hg.2 (ht t rfl).symm hl (hf.mono hm)
      · exact conduct_link (hm hv) hg.2 (hf.mono hm)

theorem conduct_configure (hv : v ∈ past) (generate : ServingGenerator) (hf : Goes past f) :
    Conduct past none (follow (v.configure generate now) f) := by
  unfold configure
  split
  · exact hf.unchanged
  · split
    · refine conduct_commit (r := .updateVersionStatus _) (g := id) ⟨v, hv, ?_, ?_, ?_⟩
        (fun a more o ht => ht o) hf
      · rfl
      · exact assigned_set_configured v true "" "" _
      · rfl
    · unfold settle
      split
      · exact hf.unchanged
      · refine conduct_commit (r := .updateVersionStatus _) (g := id) ⟨v, hv, ?_, ?_, ?_⟩
          (fun a more o ht => ht o) hf
        · rfl
        · exact assigned_set_configured v false _ _ _
        · rfl

theorem conduct_finish (ok : Bool) : Conduct past none (Handlers.finish ok) := by
  cases ok with
  | false => exact .clock fun _ => .own fun _ => .ended
  | true => exact .own fun _ => .ended

theorem conduct_afterError {e : ReconcileError} {L : Processing VersionSpec VersionStatus}
    (h : Conduct past none L) :
    Conduct past none (Handlers.afterError e L) := by
  unfold Handlers.afterError
  split
  · exact .own fun _ => .ended
  · exact h

theorem conduct_attend {generate : ServingGenerator} {live : Option Version} {ok : Bool}
    (hv : ∀ v ∈ live, v ∈ past) : Conduct past none ((handlers generate).attend k live ok) := by
  cases live with
  | none => exact .own fun _ => conduct_finish ok
  | some v =>
    have hfinish (past : List Version) (changed : Bool) (o : Version) :
        Conduct past none (.own (.remember o) fun _ => Handlers.finish (ok && changed)) :=
      .own fun _ => conduct_finish _
    -- The second handler is called with the version that the first one leaves.
    have hsecond (past : List Version) (changed : Bool) (o : Version) (ho : o ∈ past) :
        Conduct past none (Handlers.changeEach k (fun changed o => .own (.remember o) fun _ =>
          Handlers.finish (ok && changed)) [fun m _ v =>
            Version.configure generate v m.time] changed o) := by
      refine .clock fun m => conduct_configure ho generate fun a more hm _ => ?_
      rcases a with e | _ | p
      · exact conduct_afterError (hfinish _ _ _)
      · exact hfinish _ _ _
      · exact hfinish _ _ _
    refine .clock fun m => conduct_number (hv v rfl) fun a more hm ha => ?_
    rcases a with e | _ | o
    · exact conduct_afterError (hsecond _ _ _ (hm (hv v rfl)))
    · exact hsecond _ _ _ (hm (hv v rfl))
    · exact hsecond _ _ _ (ha o rfl)

theorem conduct_handlers (generate : ServingGenerator) (k : Key) (past : List Version) :
    Conduct past none ((handlers generate).process k) := by
  refine .plain (r := .version k) trivial fun a more _ ht => ?_
  rcases a with e | live
  · exact conduct_finish false
  · have hlive : ∀ v ∈ live, v ∈ more := fun v hv => ht v (congrArg Except.ok hv)
    refine .own fun tombstone => ?_
    cases tombstone with
    | none => exact conduct_attend hlive
    | some t =>
      by_cases hg : Controller.isGone t live = true
      · simp only [Handlers.settleTombstone, if_pos hg]
        exact .own fun _ => conduct_attend hlive
      · simp only [Handlers.settleTombstone, if_neg hg]
        exact .own fun _ => conduct_attend hlive

end ModelTemplates.Version
