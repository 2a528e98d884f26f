import ModelTemplates.Proofs.WorkQueue.Orderly
/-! A work queue with all those who use it. Every addition to an open queue is answered by a
hand-out after it, to one holder at a time. -/
namespace ModelTemplates.WorkQueue

variable {q r : WorkQueue} {busy : List Key} {j k : Key}

theorem mem_add_of_mem_dirty (hk : k ∈ q.dirty) : k ∈ (q.add j).dirty := by
  unfold add
  split
  · exact hk
  · split <;> exact List.mem_cons_of_mem _ hk

theorem done_closed (q : WorkQueue) (k : Key) : (q.done k).closed = q.closed := by
  unfold done
  simp only
  split <;> rfl

theorem take?_of_ready {ks : List Key} (hopen : q.closed = false) (hk : q.ready = k :: ks) :
    ∃ r, q.take? = some (k, r) ∧ r.ready = ks := by
  unfold take?
  rw [if_neg (by simp [hopen]), hk]
  exact ⟨_, rfl, rfl⟩

/-- What `wake` does before it adds the key. -/
def lapse (q : WorkQueue) : WorkQueue := { q with waiting := q.waiting - 1 }

example (q : WorkQueue) (k : Key) : q.lapse.add k = q.wake k := rfl

/-- A queue, the timers of failed keys, and the holders of keys that were handed out. -/
structure Usage where
  queue : WorkQueue
  /-- Keys whose timers have not run out. -/
  armed : List Key
  /-- Keys that were handed out and are not done. -/
  held : List Key

namespace Usage

/-- What is done to a queue. When a timer runs out, its key is added in an act of its own, and
others may come in between. -/
inductive Act where
  | add (k : Key)
  | handOut (k : Key)
  | done (k : Key)
  | fail (k : Key)
  | lapse (k : Key)
  | forget (k : Key)
  | close
deriving DecidableEq

def opening (retry : RetryPolicy) : Usage := ⟨.empty retry, [], []⟩

inductive Step (d : Usage) : Act → Usage → Prop where
  | add (k : Key) : Step d (.add k) { d with queue := d.queue.add k }
  | handOut {k : Key} {q : WorkQueue} (ht : d.queue.take? = some (k, q)) :
      Step d (.handOut k) { d with queue := q, held := k :: d.held }
  /-- Only its holder says that a key is done. -/
  | done {k : Key} {before after : List Key} (hh : d.held = before ++ k :: after) :
      Step d (.done k) { d with queue := d.queue.done k, held := before ++ after }
  | fail {k : Key} {wait : Option Duration} {q : WorkQueue} (hf : d.queue.fail k = some (wait, q)) :
      Step d (.fail k) { d with queue := q, armed := (wait.map fun _ => k).toList ++ d.armed }
  /-- Whoever cannot count a failure breaks off. -/
  | uncounted {k : Key} (hf : d.queue.fail k = none) : Step d (.fail k) d
  | lapse {k : Key} {before after : List Key} (ha : d.armed = before ++ k :: after) :
      Step d (.lapse k) { d with queue := d.queue.lapse, armed := before ++ after }
  | forget (k : Key) : Step d (.forget k) { d with queue := d.queue.forget k }
  | close : Step d .close { d with queue := d.queue.close }

inductive Run : Usage → List Act → Usage → Prop where
  | nil {d : Usage} : Run d [] d
  | cons {d e f : Usage} {a : Act} {as : List Act} (hs : Step d a e) (hr : Run e as f) :
      Run d (a :: as) f

variable {d e f : Usage} {a : Act} {as bs : List Act}

theorem Run.head (h : Run d (a :: as) f) : ∃ e, Step d a e ∧ Run e as f := by
  cases h with
  | cons hs hr => exact ⟨_, hs, hr⟩

theorem Run.split (h : Run d (as ++ bs) f) : ∃ e, Run d as e ∧ Run e bs f := by
  induction as generalizing d with
  | nil => exact ⟨d, .nil, h⟩
  | cons a as ih =>
    obtain ⟨d', hs, hr⟩ := h.head
    obtain ⟨e, has, hbs⟩ := ih hr
    exact ⟨e, .cons hs has, hbs⟩

theorem Step.closed (hs : Step d a e) (ha : a ≠ .close) : e.queue.closed = d.queue.closed := by
  cases hs with
  | add k => exact closed_add _ _
  | handOut ht =>
    obtain ⟨hd, he, -, -⟩ := of_take?_eq_some ht
    exact he.trans hd.symm
  | done hh => exact done_closed _ _
  | fail hf => exact (of_fail_eq_some hf).1
  | uncounted => rfl
  | lapse => rfl
  | forget => rfl
  | close => exact absurd rfl ha

theorem Step.dirty (hs : Step d a e) (hk : k ∈ d.queue.dirty) (ha : a ≠ .handOut k) :
    k ∈ e.queue.dirty := by
  cases hs with
  | add => exact mem_add_of_mem_dirty hk
  | @handOut j q ht =>
    obtain ⟨-, -, -, hd⟩ := of_take?_eq_some ht
    have hne : k ≠ j := by
      rintro rfl
      exact ha rfl
    show k ∈ q.dirty
    rw [hd, List.mem_filter]
    exact ⟨hk, by simpa using hne⟩
  | done => exact (done_dirty _ _).symm ▸ hk
  | fail hf =>
    obtain ⟨-, -, hd, -⟩ := of_fail_eq_some hf
    exact hd.symm ▸ hk
  | uncounted => exact hk
  | lapse => exact hk
  | forget => exact hk
  | close => exact hk

theorem Step.held (hs : Step d a e) (hk : k ∈ d.held) (ha : a ≠ .done k) : k ∈ e.held := by
  cases hs with
  | handOut => exact List.mem_cons_of_mem _ hk
  | @done j before after hh =>
    rw [hh] at hk
    have hne : k ≠ j := by
      rintro rfl
      exact ha rfl
    simpa [hne] using hk
  | _ => exact hk

/-- What holds of a queue while it is used: an open one is in order, and every timer is counted. -/
structure Sound (d : Usage) : Prop where
  orderly : d.queue.closed = false → d.queue.Orderly d.held
  timers : d.queue.waiting = d.armed.length

theorem sound_opening (retry : RetryPolicy) : (opening retry).Sound :=
  ⟨fun _ => orderly_empty retry, rfl⟩

theorem Sound.step (h : d.Sound) (hs : Step d a e) : e.Sound := by
  have hc := hs.closed
  cases hs with
  | add k =>
    constructor
    · intro hopen
      exact (h.orderly ((hc nofun).symm.trans hopen)).add k
    · exact (add_waiting _ _).trans h.timers
  | handOut ht =>
    obtain ⟨hd, -, hw, -⟩ := of_take?_eq_some ht
    constructor
    · intro _
      exact ((h.orderly hd).take ht).1
    · exact hw.trans h.timers
  | done hh =>
    constructor
    · intro hopen
      have ho := h.orderly ((hc nofun).symm.trans hopen)
      rw [hh] at ho
      exact ho.done
    · exact (done_waiting _ _).trans h.timers
  | @fail k wait q hf =>
    constructor
    · intro hopen
      exact (h.orderly ((hc nofun).symm.trans hopen)).fail hf
    · obtain ⟨-, -, -, -, -, hw⟩ := of_fail_eq_some hf
      show q.waiting = _
      rw [hw, h.timers]
      cases wait <;> simp
  | uncounted => exact h
  | lapse ha =>
    constructor
    · intro hopen
      exact (h.orderly hopen).congr rfl rfl rfl rfl
    · show d.queue.waiting - 1 = _
      rw [h.timers, ha]
      simp
  | forget k =>
    constructor
    · intro hopen
      exact (h.orderly hopen).congr rfl rfl rfl rfl
    · exact h.timers
  | close =>
    constructor
    · intro hopen
      contradiction
    · exact h.timers

theorem Sound.lapse (h : d.Sound) (hs : Step d (.lapse k) e) :
    d.queue.waiting = e.queue.waiting + 1 := by
  cases hs with
  | lapse ha =>
    show d.queue.waiting = d.queue.waiting - 1 + 1
    rw [h.timers, ha, List.length_append, List.length_cons]
    omega

theorem Sound.handOut (h : d.Sound) (hs : Step d (.handOut k) e) : k ∉ d.held := by
  cases hs with
  | handOut ht =>
    obtain ⟨hopen, -⟩ := of_take?_eq_some ht
    have hapart := ((h.orderly hopen).take ht).1.apart
    exact (List.nodup_cons.mp hapart).1

theorem Run.closed (hr : Run d as e) (ha : .close ∉ as) : e.queue.closed = d.queue.closed := by
  induction hr with
  | nil => rfl
  | cons hs _ ih =>
    rw [List.mem_cons, not_or] at ha
    exact (ih ha.2).trans (hs.closed (Ne.symm ha.1))

theorem Run.dirty (hr : Run d as e) (hk : k ∈ d.queue.dirty) :
    Act.handOut k ∈ as ∨ k ∈ e.queue.dirty := by
  induction hr with
  | nil => exact .inr hk
  | @cons d e f a as hs _ ih =>
    by_cases ha : a = .handOut k
    · exact .inl (ha ▸ List.mem_cons_self)
    · exact (ih (hs.dirty hk ha)).imp_left (List.mem_cons_of_mem _)

theorem Run.held (hr : Run d as e) (hk : k ∈ d.held) : Act.done k ∈ as ∨ k ∈ e.held := by
  induction hr with
  | nil => exact .inr hk
  | @cons d e f a as hs _ ih =>
    by_cases ha : a = .done k
    · exact .inl (ha ▸ List.mem_cons_self)
    · exact (ih (hs.held hk ha)).imp_left (List.mem_cons_of_mem _)

theorem Sound.run (h : d.Sound) (hr : Run d as e) : e.Sound := by
  induction hr with
  | nil => exact h
  | cons hs _ ih => exact ih (h.step hs)

/-- An open queue is idle when nothing was added, is held or waits for a timer. -/
theorem Sound.isIdle_iff (h : d.Sound) (hopen : d.queue.closed = false) :
    d.queue.isIdle = true ↔ d.queue.dirty = [] ∧ d.queue.processing = [] ∧ d.armed = [] := by
  have ho := h.orderly hopen
  constructor
  · intro hi
    obtain ⟨hd, -, hw⟩ := ho.idle hi
    simp only [isIdle, Bool.and_eq_true, List.isEmpty_iff, decide_eq_true_eq] at hi
    exact ⟨hd, hi.1.2, List.length_eq_zero_iff.mp (h.timers.symm.trans hw)⟩
  · rintro ⟨hd, hp, ha⟩
    have hready : d.queue.ready = [] := by
      apply List.eq_nil_iff_forall_not_mem.mpr
      intro k hk
      have := ((ho.ready k).mp hk).1
      simp [hd] at this
    simp [isIdle, hready, hp, h.timers, ha]

theorem Sound.ready_comes (h : d.Sound) (hopen : d.queue.closed = false) {ahead rest : List Key}
    (hk : d.queue.ready = ahead ++ k :: rest) : ∃ e, Run d ((ahead ++ [k]).map .handOut) e := by
  induction ahead generalizing d with
  | nil =>
    obtain ⟨q, ht, -⟩ := take?_of_ready hopen hk
    exact ⟨_, .cons (.handOut ht) .nil⟩
  | cons j ahead ih =>
    obtain ⟨q, ht, hq⟩ := take?_of_ready hopen hk
    have hs : Step d (.handOut j) { d with queue := q, held := j :: d.held } := .handOut ht
    obtain ⟨e, hr⟩ := ih (h.step hs) ((hs.closed nofun).trans hopen) hq
    exact ⟨e, .cons hs hr⟩

/-- Nothing keeps an added key from being handed out but the work on it and the keys before it. -/
theorem Sound.dirty_comes (h : d.Sound) (hopen : d.queue.closed = false) (hk : k ∈ d.queue.dirty) :
    ∃ ahead e, Run d ((ahead ++ [k]).map .handOut) e ∨
      Run d (.done k :: (ahead ++ [k]).map .handOut) e := by
  have ho := h.orderly hopen
  by_cases hp : k ∈ d.queue.processing
  · obtain ⟨before, after, hheld⟩ := List.append_of_mem ((ho.processing k).mp hp)
    have hs := Step.done hheld
    have hopen' := (hs.closed nofun).trans hopen
    have ho' := (h.step hs).orderly hopen'
    have hapart := ho.apart
    rw [hheld, List.nodup_middle, List.nodup_cons] at hapart
    have hready :=
      (ho'.ready k).mpr ⟨hs.dirty hk nofun, fun hp' => hapart.1 ((ho'.processing k).mp hp')⟩
    obtain ⟨ahead, rest, hr⟩ := List.append_of_mem hready
    obtain ⟨e, he⟩ := (h.step hs).ready_comes hopen' hr
    exact ⟨ahead, e, .inr (.cons hs he)⟩
  · obtain ⟨ahead, rest, hr⟩ := List.append_of_mem ((ho.ready k).mpr ⟨hk, hp⟩)
    obtain ⟨e, he⟩ := h.ready_comes hopen hr
    exact ⟨ahead, e, .inl he⟩

/-- Whoever uses the queue and in whatever order: until it is closed, what was added is ready once
or worked on; a key is done before it is handed out again; what was added is handed out after that
or still to be; and the timers are counted, so that an idle queue has nothing left to do. What is
still to be handed out waits for nothing but the work on it and the keys before it. -/
theorem added_handed_out {retry : RetryPolicy} (hr : Run (opening retry) as d) :
    (.close ∉ as → d.queue.ready.Nodup ∧
      (∀ k ∈ d.queue.ready, k ∈ d.queue.dirty ∧ k ∉ d.queue.processing) ∧
      ∀ k ∈ d.queue.dirty, k ∈ d.queue.ready ∨ k ∈ d.queue.processing) ∧
    (∀ k earlier between later, as = earlier ++ .handOut k :: between ++ .handOut k :: later →
      .done k ∈ between) ∧
    (∀ k earlier later, as = earlier ++ .add k :: later → .close ∉ earlier →
      .handOut k ∈ later ∨ k ∈ d.queue.dirty) ∧
    d.queue.waiting = d.armed.length ∧
    (∀ k e, Step d (.lapse k) e → d.queue.waiting = e.queue.waiting + 1) ∧
    (.close ∉ as → (d.queue.isIdle = true ↔ d.queue.dirty = [] ∧ d.queue.processing = [] ∧
      d.armed = [])) ∧
    (.close ∉ as → ∀ k ∈ d.queue.dirty, ∃ ahead e,
      Run d ((ahead ++ [k]).map .handOut) e ∨
      Run d (.done k :: (ahead ++ [k]).map .handOut) e) := by
  have h := (sound_opening retry).run hr
  have hopen (ha : .close ∉ as) : d.queue.closed = false := hr.closed ha
  refine ⟨fun ha => ?_, ?_, ?_, h.timers, fun k e => h.lapse, fun ha => h.isIdle_iff (hopen ha),
    fun ha k => h.dirty_comes (hopen ha)⟩
  · have ho := h.orderly (hopen ha)
    refine ⟨ho.once, fun k => (ho.ready k).mp, fun k hk => ?_⟩
    by_cases hp : k ∈ d.queue.processing
    · exact .inr hp
    · exact .inl ((ho.ready k).mpr ⟨hk, hp⟩)
  · rintro k earlier between later rfl
    obtain ⟨d₂, hfirst, hsecond⟩ := hr.split
    obtain ⟨d₀, -, hfrom⟩ := hfirst.split
    obtain ⟨d₁, hs, hbetween⟩ := hfrom.head
    obtain ⟨d₃, hs', -⟩ := hsecond.head
    have hheld : k ∈ d₁.held := by
      cases hs with
      | handOut => exact List.mem_cons_self
    exact (hbetween.held hheld).resolve_right (((sound_opening retry).run hfirst).handOut hs')
  · rintro k earlier later rfl ha
    obtain ⟨d₀, hbefore, hfrom⟩ := hr.split
    obtain ⟨d₁, hs, hlater⟩ := hfrom.head
    have hdirty : k ∈ d₁.queue.dirty := by
      cases hs with
      | add => exact (mem_add_dirty (hbefore.closed ha)).mpr (.inl rfl)
    exact hlater.dirty hdirty

def llama : Key := ⟨"models", "llama"⟩

def mistral : Key := ⟨"models", "mistral"⟩

/-- A key is added again while it is worked on, fails, and waits for its timer while it is worked on
once more. -/
def morning : List Act := [.add llama, .handOut llama, .add mistral]

def noon : List Act := [.fail llama, .done llama, .handOut mistral]

def evening : List Act := [.handOut llama, .lapse llama, .done mistral]

theorem added_handed_out_evening :
    ∃ d, Run (opening .standard) (morning ++ .add llama :: (noon ++ evening)) d ∧
      (Act.handOut llama ∈ noon ++ evening ∨ llama ∈ d.queue.dirty) ∧
      Act.done llama ∈ [.add mistral, .add llama] ++ noon ∧ d.queue.waiting = 0 := by
  have hr : Run (opening .standard) (morning ++ .add llama :: (noon ++ evening)) _ :=
    .cons (.add _) <| .cons (.handOut rfl) <| .cons (.add _) <| .cons (.add _) <|
      .cons (.fail rfl) <|
    .cons (@Step.done _ _ [] [] rfl) <| .cons (.handOut rfl) <| .cons (.handOut rfl) <|
    .cons (@Step.lapse _ _ [] [] rfl) <| .cons (@Step.done _ _ [llama] [] rfl) .nil
  obtain ⟨-, honce, hadded, hwaiting, -⟩ := added_handed_out hr
  exact ⟨_, hr, hadded llama morning _ rfl (by decide),
    honce llama [.add llama] _ [.lapse llama, .done mistral] rfl, hwaiting⟩

end Usage
end ModelTemplates.WorkQueue
