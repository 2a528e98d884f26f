import ModelTemplates.Proofs.Controller.Workers
import ModelTemplates.Proofs.Ledger.Count
import ModelTemplates.Proofs.Template.Delivery
import ModelTemplates.Proofs.Version.Conduct
/-! What workers on versions owe to templates. A template that would find something else to do after
a step is owed another look, or has just been queued. -/
namespace ModelTemplates

variable {past : List Version} {debt : Option Key} {k : Key} {t : Template}
  {generate : ServingGenerator} {w w' : World} {L L' : Processing VersionSpec VersionStatus}
  {c c' : Controller VersionSpec VersionStatus} {r : Option Request}

/-- A template finds the same default and the same latest number in both worlds. -/
structure Template.Alike (t : Template) (w w' : World) : Prop where
  prospect : t.prospect w'.stores.versions = t.prospect w.stores.versions
  latest : w'.ledger.latest t.key t.metadata.uid = w.ledger.latest t.key t.metadata.uid

theorem Template.Alike.refl (t : Template) (w : World) : t.Alike w w := ⟨rfl, rfl⟩

theorem Request.Leaves.moves {d d' : VersionStore} {r : Request} (h : r.Leaves d d') :
    d.Moves d' := by
  cases h with
  | same => exact .still
  | updated _ => exact Store.moves_put _ _
  | restated _ => exact Store.moves_put _ _

namespace Version

theorem attentive (generate : ServingGenerator) :
    Attentive (handlers generate) (Manager.versionWiring (World.siteFor generate)) (fun w =>
      w.stores.versions) (concern generate) where
  serves := wiring_serves generate
  moves r w := (World.answer_leaves w r).moves
  object _ := rfl
  within _ := rfl
  heeds := heeds_handlers generate

theorem Conduct.templates {q : Request} {next : q.Answer → Processing VersionSpec VersionStatus}
    (h : Conduct past debt (.ask q next)) (w : World) :
    (World.answer q w).2.stores.templates = w.stores.templates := by
  have hset {β : Type} (put : β → World) (e : Except StoreError (Version × β))
      (hput : ∀ s, (put s).stores.templates = w.stores.templates) :
      (w.settle put e).2.stores.templates = w.stores.templates := by
    rw [World.settle_snd]
    split
    · exact hput _
    · rfl
  cases h with
  | plain hh _ =>
    cases q with
    | updateVersion x => exact hset _ _ fun _ => rfl
    | updateVersionStatus x => exact hset _ _ fun _ => rfl
    | updateTemplate x => exact absurd hh id
    | updateTemplateStatus x => exact absurd hh id
    | _ => rfl
  | number _ _ _ _ _ => exact hset _ _ fun _ => rfl
  | count _ => rfl
  | tell _ => rfl

theorem Harmless.alike {q : Request} (hh : Harmless past q) (hr : w.stores.versions.Recorded past)
    (t : Template) :
    t.Alike w (World.answer q w).2 := by
  refine ⟨hh.prospect hr (World.answer_leaves w q) t, ?_⟩
  cases q with
  | advance => exact absurd hh id
  | removeEntry => exact absurd hh id
  | _ => first | rfl | (simp only [World.answer, World.settle_snd]; split <;> rfl)

/-- A number that is given makes a difference only to the template that the version names. -/
theorem numbered_alike {p : Version} {n : UInt32} {now : Timestamp} (hp : p ∈ past)
    (ha : p.assigned = false)
    (hlabel : p.metadata.labels.find? templateLabel = some p.spec.templateName)
    (hr : w.stores.versions.Recorded past) (hk : t.key ≠ p.templateKey) :
    t.Alike w (World.answer (.updateVersionStatus (p.numbered n now)) w).2 := by
  refine ⟨numbered_prospect hp ha hlabel hr (World.answer_leaves w _) hk, ?_⟩
  simp only [World.answer, World.settle_snd]
  split <;> rfl

theorem answer_error {x : Version} {e : StoreError}
    (h : World.answer (.updateVersionStatus x) w = (.error e, w')) :
    w' = w := by
  simp only [World.answer, World.settle] at h
  split at h
  · simp at h
  · exact (congrArg Prod.snd h).symm

theorem Conduct.turn (h : Conduct past debt L) (hr : w.stores.versions.Recorded past)
    (hk : w.stores.templates.Keyed) (ht : L.Turn k c w r L' c' w') :
    ∃ debt', Conduct (w'.stores.versions.objects.values ++ past) debt' L' ∧
      ∀ t : Template, debt' = some t.key ∨ t.key ∈ w'.enqueued ∨ debt ≠ some t.key ∧
      t.Alike w w' := by
  have still (t : Template) :
      debt = some t.key ∨ t.key ∈ w.enqueued ∨ debt ≠ some t.key ∧ t.Alike w w :=
    (Classical.em _).imp_right fun hd => .inr ⟨hd, .refl t w⟩
  have hmore (w' : World) : past ⊆ w'.stores.versions.objects.values ++ past :=
    List.subset_append_right _ _
  cases ht with
  | clock m =>
    cases h with
    | clock h => exact ⟨debt, (h m).mono (hmore w), still⟩
  | @own a next =>
    cases h with
    | own h => exact ⟨debt, (h _).mono (hmore w), still⟩
  | @ask q next _ =>
    have htruth := World.truthful w hk q past
    generalize hw : (World.answer q w).2 = w'' at htruth ⊢
    cases h with
    | plain hh hnext =>
      refine ⟨debt, hnext _ _ (hmore w'') htruth, fun t => ?_⟩
      exact (Classical.em _).imp_right fun hd => .inr ⟨hd, hw ▸ hh.alike hr t⟩
    | @number _ p n now _ hp ha hlabel herror hok =>
      have hdebt (t : Template) : (none : Option Key) ≠ some t.key := by simp
      subst hw
      have halike (t : Template) (ht : t.key ≠ p.templateKey) :
          t.Alike w (World.answer (.updateVersionStatus (p.numbered n now)) w).2 :=
        numbered_alike hp ha hlabel hr ht
      generalize hq : World.answer (.updateVersionStatus (p.numbered n now)) w =
        q at htruth halike ⊢
      obtain ⟨a, w''⟩ := q
      rcases a with e | o
      · obtain rfl := answer_error hq
        exact ⟨none, herror e _ (hmore _), still⟩
      · refine ⟨some p.templateKey, hok o _ (hmore _) (htruth o rfl), fun t => ?_⟩
        by_cases ht : p.templateKey = t.key
        · exact .inl (congrArg some ht)
        · exact .inr (.inr ⟨hdebt t, halike t (Ne.symm ht)⟩)
    | @count _ j owner _ hnext =>
      subst hw
      refine ⟨some j, hnext _ _ (hmore _), fun t => ?_⟩
      by_cases ht : j = t.key
      · exact .inl (congrArg some ht)
      · exact .inr (.inr ⟨fun hd => ht (Option.some.inj hd), rfl,
          congrFun (Ledger.advance_latest_ne (Ne.symm ht)) t.metadata.uid⟩)
    | @tell _ j _ hnext =>
      subst hw
      refine ⟨none, hnext _ (hmore _), fun t => .inr ?_⟩
      by_cases ht : j = t.key
      · exact .inl (List.mem_append_right _ (List.mem_singleton.mpr ht.symm))
      · exact .inr ⟨fun hd => ht (Option.some.inj hd), rfl, rfl⟩

def Conducted (past : List Version) (b : ControllerWorkers VersionSpec VersionStatus) : Prop :=
  ∀ job ∈ b.jobs, ∃ debt, Conduct past debt job.2

def Owed (past : List Version) (b : ControllerWorkers VersionSpec VersionStatus) (k : Key) : Prop :=
  ∃ job ∈ b.jobs, Conduct past (some k) job.2

variable {b b' : ControllerWorkers VersionSpec VersionStatus} {asked : Option (Key × Request)}
  {more : List Version}

theorem Conducted.mono (h : Conducted past b) (hm : past ⊆ more) : Conducted more b :=
  fun job hj => (h job hj).imp fun _ hc => hc.mono hm

theorem Owed.mono (h : Owed past b k) (hm : past ⊆ more) : Owed more b k :=
  let ⟨job, hj, hc⟩ := h
  ⟨job, hj, hc.mono hm⟩

/-- What a step leaves. A template for which it makes a difference is owed another look, or has just
been queued. -/
structure Balances (past : List Version) (b b' : ControllerWorkers VersionSpec VersionStatus)
    (w w' : World) : Prop where
  conducted : Conducted (w'.stores.versions.objects.values ++ past) b'
  templates : w'.stores.templates = w.stores.templates
  debts : ∀ t : Template, Owed (w'.stores.versions.objects.values ++ past) b' t.key ∨
    t.key ∈ w'.enqueued ∨ ¬ Owed past b t.key ∧ t.Alike w w'

theorem balances_still (hc : Conducted (w.stores.versions.objects.values ++ past) b')
    (hb : ∀ job ∈ b.jobs, job ∈ b'.jobs) : Balances past b b' w w where
  conducted := hc
  templates := rfl
  debts t := by
    by_cases ho : Owed past b t.key
    · obtain ⟨job, hj, hc⟩ := ho
      left
      exact ⟨job, hb job hj, hc.mono (List.subset_append_right _ _)⟩
    · right
      right
      exact ⟨ho, .refl t w⟩

variable {before after : List (Key × Processing VersionSpec VersionStatus)}

theorem Owed.others (hm : past ⊆ more) {job : Key × Processing VersionSpec VersionStatus}
    (hj : job ∈ before ++ after) (hc : Conduct past (some k) job.2)
    (c : Controller VersionSpec VersionStatus)
    (worker : List (Key × Processing VersionSpec VersionStatus)) :
    Owed more ⟨c, before ++ (worker ++ after)⟩ k := by
  refine ⟨job, ?_, hc.mono hm⟩
  rw [List.mem_append, List.mem_append]
  exact (List.mem_append.mp hj).imp_right .inr

theorem Conducted.turn (h : Conducted past b) (hr : w.stores.versions.Recorded past)
    (hk : w.stores.templates.Keyed) (hj : b.jobs = before ++ (k, L) :: after)
    (ht : L.Turn k b.controller w r L' c' w') :
    Balances past b ⟨c', before ++ (k, L') :: after⟩ w w' := by
  have hmore : past ⊆ w'.stores.versions.objects.values ++ past := List.subset_append_right _ _
  have hold := h.mono hmore
  unfold Conducted at h hold
  rw [hj, List.forall_mem_append, List.forall_mem_cons] at h hold
  obtain ⟨debt, hL⟩ := h.2.1
  obtain ⟨debt', hL', hturn⟩ := hL.turn hr hk ht
  have howed {d : Option Key} {t : Template} (hd : d = some t.key)
      (hc : Conduct (w'.stores.versions.objects.values ++ past) d L') :
      Owed (w'.stores.versions.objects.values ++ past) ⟨c', before ++ (k, L') :: after⟩ t.key :=
    ⟨(k, L'), by simp, hd ▸ hc⟩
  refine ⟨List.forall_mem_append.mpr ⟨hold.1, List.forall_mem_cons.mpr ⟨⟨debt', hL'⟩, hold.2.2⟩⟩,
    ?_, fun t => ?_⟩
  · cases ht with
    | ask _ => exact hL.templates w
    | _ => rfl
  · by_cases ho : Owed past b t.key
    · obtain ⟨job, hjob, hc⟩ := ho
      rw [hj, List.mem_append, List.mem_cons, or_left_comm, ← List.mem_append] at hjob
      rcases hjob with rfl | hjob
      · -- The step is one of the worker that owes it.
        obtain ⟨d, hd, hpaid⟩ := hc.turn hr hk ht
        rcases hpaid t with hsome | hqueued | ⟨hne, -⟩
        · exact .inl (howed hsome hd)
        · exact .inr (.inl hqueued)
        · exact absurd rfl hne
      · exact .inl (Owed.others hmore hjob hc c' [(k, L')])
    · rcases hturn t with hsome | hqueued | ⟨-, halike⟩
      · exact .inl (howed hsome hL')
      · exact .inr (.inl hqueued)
      · exact .inr (.inr ⟨ho, halike⟩)

theorem Conducted.done (h : Conducted past b) (w : World)
    (hj : b.jobs = before ++ (k, .ended) :: after) :
    Balances past b ⟨c', before ++ after⟩ w w := by
  have hmore : past ⊆ w.stores.versions.objects.values ++ past := List.subset_append_right _ _
  have hold := h.mono hmore
  unfold Conducted at hold
  rw [hj, List.forall_mem_append, List.forall_mem_cons] at hold
  refine ⟨List.forall_mem_append.mpr ⟨hold.1, hold.2.2⟩, rfl, fun t => ?_⟩
  by_cases ho : Owed past b t.key
  · obtain ⟨job, hjob, hc⟩ := ho
    rw [hj, List.mem_append, List.mem_cons, or_left_comm, ← List.mem_append] at hjob
    rcases hjob with rfl | hjob
    · -- Nothing is owed when the work is over.
      cases hc
    · exact .inl (Owed.others hmore hjob hc c' [])
  · exact .inr (.inr ⟨ho, .refl t w⟩)

theorem Conducted.step (h : Conducted past b) (hr : w.stores.versions.Recorded past)
    (hk : w.stores.templates.Keyed)
    (hs : ControllerWorkers.Step (handlers generate)
      (Manager.versionWiring (World.siteFor generate)) b w asked b' w') :
    Balances past b b' w w' := by
  have hnow := h.mono (List.subset_append_right w.stores.versions.objects.values past)
  have hworld := hs.world (attentive generate)
  cases hs with
  | feed _ =>
    obtain rfl := hworld
    exact balances_still hnow fun _ hj => hj
  | fire m => exact balances_still hnow fun _ hj => hj
  | enqueue j => exact balances_still hnow fun _ hj => hj
  | @take j q _ =>
    have hfirst :
        ∃ debt, Conduct (w.stores.versions.objects.values ++ past) debt
          ((handlers generate).process j) :=
      ⟨none, conduct_handlers generate j _⟩
    exact balances_still (List.forall_mem_cons.mpr ⟨hfirst, hnow⟩) fun _ => List.mem_cons_of_mem _
  | turn hj ht => exact h.turn hr hk hj ht
  | done hj _ => exact h.done w hj

end Version
end ModelTemplates
