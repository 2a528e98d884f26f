import ModelTemplates.Proofs.Controller.Pending
import ModelTemplates.Proofs.Store.Fence
/-! What handlers are shown. Handlers may do anything, as long as they reach the store by its
operations and tell when they wrote. Whatever happens around it, a controller comes to rest only
when every live object was shown, as it is stored, to handlers that all left it as it was. -/
namespace ModelTemplates

variable {ω σ τ : Type} [DecidableEq σ] {s : Store σ τ} {op : Store.Operation σ τ}
  {ops : List (Store.Operation σ τ)}

theorem Store.moves_apply (h : s.Keyed) (op : Store.Operation σ τ) : s.Moves (s.apply op).2 := by
  have he := Store.effect h op
  generalize s.apply op = r at he ⊢
  cases he with
  | read => exact .still
  | refused => exact .still
  | stored => exact Store.moves_put _ _
  | removed => exact Store.moves_without _ _ _

namespace Controller

variable {c : Controller σ τ} {busy : List Key} {j k : Key} {m : Moment}

theorem Follows.after (h : c.Follows s busy) (hk : s.Keyed) (ops : List (Store.Operation σ τ)) :
    c.Follows (s.after ops) busy := by
  induction ops generalizing s with
  | nil => exact h
  | cons op ops ih => exact ih (h.moves (Store.moves_apply hk op)) (hk.apply op)

theorem Pending.after (hp : c.Pending s j) (h : c.Follows s busy) (hk : s.Keyed)
    (ops : List (Store.Operation σ τ)) : c.Pending (s.after ops) j := by
  induction ops generalizing s with
  | nil => exact hp
  | cons op ops ih =>
    have hm := Store.moves_apply hk op
    exact ih (hp.moves h hm) (h.moves hm) (hk.apply op)

theorem pending_of_writes (h : c.Follows s busy) (hk : s.Keyed) (hw : s.Writes op k) :
    c.Pending (s.apply op).2 k := by
  have he := Store.effect hk op
  obtain ⟨ht, hok⟩ := hw
  generalize s.apply op = r at he hok ⊢
  cases he with
  | read hn =>
    rw [hn] at ht
    contradiction
  | refused => simp [Except.isOk, Except.toBool] at hok
  | stored hs =>
    obtain rfl := Option.some.inj (hs.symm.trans ht)
    exact pending_put h _
  | removed now hs =>
    obtain rfl := Option.some.inj (hs.symm.trans ht)
    exact .inr (Channel.unread_send h.watch rfl)

theorem pending_of_writesIn (h : c.Follows s busy) (hk : s.Keyed) (hw : s.WritesIn ops k) :
    c.Pending (s.after ops) k := by
  induction ops generalizing s with
  | nil => exact absurd hw id
  | cons op ops ih =>
    have h' := h.moves (Store.moves_apply hk op)
    rcases hw with hw | hw
    · exact (pending_of_writes h hk hw).after h' (hk.apply op) ops
    · exact ih h' (hk.apply op) hw

theorem same_or_pending_after (h : c.Follows s busy) (hk : s.Keyed)
    (ops : List (Store.Operation σ τ)) (k : Key) :
    (s.after ops).get? k = s.get? k ∨ c.Pending (s.after ops) k := by
  by_cases hw : s.WritesIn ops k
  · exact .inr (pending_of_writesIn h hk hw)
  · exact .inl (Store.after_get?_of_not_writesIn hk hw)

/-- A handler reaches the store by its operations, and answers with a new state of the object that
it is shown exactly when it wrote that object. -/
def Reports (store : ω → Store σ τ) (h : Moment → Key → Object σ τ → ω → Verdict (Object σ τ) × ω) :
    Prop :=
  ∀ m o w, (store w).Keyed → ∃ ops, store (h m o.key o w).2 = (store w).after ops ∧
    (∀ p, (h m o.key o w).1 = .ok (.updated p) → p.key = o.key) ∧
    ((∃ p, (h m o.key o w).1 = .ok (.updated p)) ↔ (store w).WritesIn ops o.key)

/-- Whatever a controller asks of its world, the store changes by operations that handlers tell
of. -/
structure Wiring.Candid (wiring : Wiring ω σ τ) (store : ω → Store σ τ) :
    Prop extends wiring.Serves store where
  read : ∀ k w, store (wiring.read k w).2 = store w ∧
    ∀ live, (wiring.read k w).1 = .ok live → live = (store w).get? k
  change : ∀ h ∈ wiring.change, Reports store h
  remove : ∀ h ∈ wiring.remove, ∀ m k o w, (store w).Keyed →
    ∃ ops, store (h m k o w).2 = (store w).after ops

def passedOn (o : Object σ τ) : Verdict (Object σ τ) → Object σ τ
  | .ok (.updated p) => p
  | _ => o

def brokeOff {α : Type} : Except ReconcileError α → Bool
  | .ok _ => false
  | .error e => e = .overflow

/-- What each handler was shown and what it answered, and the world after all of them, or after the
first that broke off. -/
def calls (m : Moment) (k : Key) :
    List (Moment → Key → Object σ τ → ω → Verdict (Object σ τ) × ω) → Object σ τ → ω →
    List (Object σ τ × Verdict (Object σ τ)) × ω
  | [], _, w => ([], w)
  | h :: hs, o, w =>
    let r := h m k o w
    if brokeOff r.1 then ([(o, r.1)], r.2)
    else
      let rest := calls m k hs (passedOn o r.1) r.2
      ((o, r.1) :: rest.1, rest.2)

variable {hs : List (Moment → Key → Object σ τ → ω → Verdict (Object σ τ) × ω)}
  {o : Object σ τ} {w : ω} {wiring : Wiring ω σ τ} {store : ω → Store σ τ}

omit [DecidableEq σ] in
/-- Handlers that all came to their end succeeded when no call failed. -/
theorem changeAll_eq (hs : List (Moment → Key → Object σ τ → ω → Verdict (Object σ τ) × ω))
    (m : Moment) (k : Key) (ok : Bool) (o : Object σ τ) (w : ω) :
    (changeAll m k hs ok o w).2 = (calls m k hs o w).2 ∧
      ∀ r, (changeAll m k hs ok o w).1 = some r →
        r.1 = (ok && (calls m k hs o w).1.all fun call => call.2.isOk) := by
  induction hs generalizing ok o w with
  | nil =>
    refine ⟨rfl, fun r hr => ?_⟩
    obtain rfl := Option.some.inj hr
    simp [calls]
  | cons h hs ih =>
    simp only [changeAll, calls]
    rcases h m k o w with ⟨(e | _ | p), w'⟩
    · by_cases he : e = .overflow
      · simp [he, brokeOff]
      · simpa [he, brokeOff, passedOn, Except.isOk, Except.toBool] using ih false o w'
    · simpa [brokeOff, passedOn, Except.isOk, Except.toBool] using ih ok o w'
    · simpa [brokeOff, passedOn, Except.isOk, Except.toBool] using ih ok p w'

omit [DecidableEq σ] in
theorem calls_last (h : Moment → Key → Object σ τ → ω → Verdict (Object σ τ) × ω)
    (m : Moment) (k : Key) (o : Object σ τ) (w : ω) : (calls m k [h] o w).2 = (h m k o w).2 := by
  simp only [calls]
  split <;> rfl

/-- Handlers wrote the object that they were shown, or one of them failed, or all of them left it as
it was. -/
theorem calls_spec (hh : ∀ h ∈ hs, Reports store h) (hk : (store w).Keyed) (ho : o.key = k) :
    ∃ ops, store (calls m k hs o w).2 = (store w).after ops ∧
      ((store w).WritesIn ops k ∨ (calls m k hs o w).1.all (fun call => call.2.isOk) = false ∨
        (calls m k hs o w).1 = hs.map fun _ => (o, .ok .unchanged)) := by
  induction hs generalizing o w with
  | nil => exact ⟨[], rfl, .inr (.inr rfl)⟩
  | cons h hs ih =>
    rw [List.forall_mem_cons] at hh
    obtain ⟨hhead, htail⟩ := hh
    obtain ⟨ops, hstore, hkey, hwrote⟩ := hhead m o w hk
    rw [ho] at hstore hkey hwrote
    simp only [calls]
    generalize h m k o w = r at hstore hkey hwrote ⊢
    obtain ⟨v, w'⟩ := r
    by_cases hbroke : brokeOff v = true
    · rw [if_pos hbroke]
      refine ⟨ops, hstore, .inr (.inl ?_)⟩
      cases v with
      | error e => simp [Except.isOk, Except.toBool]
      | ok => contradiction
    rw [if_neg hbroke]
    have hk' : (store w').Keyed := hstore ▸ hk.after ops
    have hnext : (passedOn o v).key = k := by
      rcases v with e | _ | p
      · exact ho
      · exact ho
      · exact hkey p rfl
    obtain ⟨more, hmore, hcalls⟩ := ih htail hk' hnext
    refine ⟨ops ++ more, ?_, ?_⟩
    · rw [hmore, hstore, Store.after_append]
    · rw [Store.writesIn_append, ← hstore]
      rcases v with e | _ | p
      · exact .inr (.inl (by simp [Except.isOk, Except.toBool]))
      · rcases hcalls with hw | hfail | hquiet
        · exact .inl (.inr hw)
        · right
          left
          simpa [Except.isOk, Except.toBool] using hfail
        · right
          right
          simpa [passedOn] using hquiet
      · exact .inl (.inl (hwrote.mp ⟨p, rfl⟩))

theorem removeAll_spec {hs : List (Moment → Key → Object σ τ → ω → Except ReconcileError Unit × ω)}
    (hh : ∀ h ∈ hs, ∀ m k o w, (store w).Keyed → ∃ ops, store (h m k o w).2 = (store w).after ops)
    (hk : (store w).Keyed) (ok : Bool) :
    ∃ ops, store (removeAll m k o hs ok w).2 = (store w).after ops := by
  induction hs generalizing ok w with
  | nil => exact ⟨[], rfl⟩
  | cons h hs ih =>
    rw [List.forall_mem_cons] at hh
    obtain ⟨ops, hstore⟩ := hh.1 m k o w hk
    simp only [removeAll]
    generalize h m k o w = r at hstore ⊢
    obtain ⟨a, w'⟩ := r
    have hrest (ok : Bool) : ∃ ops, store (removeAll m k o hs ok w').2 = (store w).after ops := by
      obtain ⟨more, hmore⟩ := ih hh.2 (w := w') (hstore ▸ hk.after ops) ok
      exact ⟨ops ++ more, by rw [hmore, hstore, Store.after_append]⟩
    cases a with
    | ok => exact hrest ok
    | error e =>
      dsimp only
      split
      · exact ⟨ops, hstore⟩
      · exact hrest false

/-- Only what is known and what is buried differs. -/
structure Resembles (c c' : Controller σ τ) : Prop where
  queue : c'.queue = c.queue
  position : c'.position = c.position
  abandoned : c'.abandoned = c.abandoned

omit [DecidableEq σ] in
theorem Resembles.refl (c : Controller σ τ) : c.Resembles c := ⟨rfl, rfl, rfl⟩

omit [DecidableEq σ] in
theorem Resembles.trans {c₁ c₂ c₃ : Controller σ τ} (h : c₁.Resembles c₂) (h' : c₂.Resembles c₃) :
    c₁.Resembles c₃ :=
  ⟨h'.queue.trans h.queue, h'.position.trans h.position, h'.abandoned.trans h.abandoned⟩

omit [DecidableEq σ] in
theorem settleTombstone_controller (wiring : Wiring ω σ τ) (m : Moment) (k : Key)
    (live : Option (Object σ τ)) (c : Controller σ τ) (w : ω) :
    c.Resembles (settleTombstone wiring m k live c w).2.1 := by
  unfold settleTombstone
  split
  · exact .refl c
  · split
    · split <;> exact ⟨rfl, rfl, rfl⟩
    · exact ⟨rfl, rfl, rfl⟩

theorem settleTombstone_store (hc : wiring.Candid store) (hk : (store w).Keyed)
    (live : Option (Object σ τ)) (c : Controller σ τ) :
    ∃ ops, store (settleTombstone wiring m k live c w).2.2 = (store w).after ops := by
  unfold settleTombstone
  split
  · exact ⟨[], rfl⟩
  · next t _ =>
    split
    · obtain ⟨ops, hstore⟩ := removeAll_spec (m := m) (k := k) (o := t) hc.remove hk true
      refine ⟨ops, ?_⟩
      rw [← hstore]
      split <;> simp_all
    · exact ⟨[], rfl⟩

omit [DecidableEq σ] in
theorem settleLive_controller (wiring : Wiring ω σ τ) (m : Moment) (k : Key)
    (live : Option (Object σ τ)) (c : Controller σ τ) (w : ω) :
    c.Resembles (settleLive wiring m k live c w).2.1 := by
  unfold settleLive
  split
  · exact ⟨rfl, rfl, rfl⟩
  · split <;> exact ⟨rfl, rfl, rfl⟩

omit [DecidableEq σ] in
theorem settleLive_some_fst (wiring : Wiring ω σ τ) (m : Moment) (k : Key) (o : Object σ τ)
    (c : Controller σ τ) (w : ω) :
    (settleLive wiring m k (some o) c w).1 =
      (changeAll m k wiring.change true o w).1.map Prod.fst := by
  simp only [settleLive]
  rcases changeAll m k wiring.change true o w with ⟨_ | r, w'⟩ <;> rfl

omit [DecidableEq σ] in
theorem settleLive_some_world (wiring : Wiring ω σ τ) (m : Moment) (k : Key) (o : Object σ τ)
    (c : Controller σ τ) (w : ω) :
    (settleLive wiring m k (some o) c w).2.2 = (changeAll m k wiring.change true o w).2 := by
  simp only [settleLive]
  rcases changeAll m k wiring.change true o w with ⟨_ | r, w'⟩ <;> rfl

omit [DecidableEq σ] in
/-- Without handlers of removals a tombstone is taken away, and nothing is done. -/
theorem settleTombstone_of_nil (hr : wiring.remove = []) (m : Moment) (k : Key)
    (live : Option (Object σ τ)) (c : Controller σ τ) (w : ω) :
    ∃ c', settleTombstone wiring m k live c w = (some true, c', w) := by
  unfold settleTombstone
  split
  · exact ⟨_, rfl⟩
  · rw [hr]
    split <;> exact ⟨_, rfl⟩

/-- Handlers wrote the live object, or one of them failed, or all of them left it as it was. -/
theorem settleLive_store (hc : wiring.Candid store) (hk : (store w).Keyed)
    {live : Option (Object σ τ)} (hlive : ∀ o, live = some o → o.key = k) (m : Moment)
    (c : Controller σ τ) :
    ∃ ops, store (settleLive wiring m k live c w).2.2 = (store w).after ops ∧ ∀ o, live = some o →
      (store w).WritesIn ops k ∨ (settleLive wiring m k live c w).1 ≠ some true ∨
        (calls m k wiring.change o w).1 = wiring.change.map fun _ => (o, .ok .unchanged) := by
  cases live with
  | none =>
    refine ⟨[], rfl, fun o ho => ?_⟩
    contradiction
  | some o =>
    obtain ⟨ops, hops, hcalls⟩ := calls_spec (m := m) hc.change hk (hlive o rfl)
    obtain ⟨hworld, hok⟩ := changeAll_eq wiring.change m k true o w
    rw [settleLive_some_world, settleLive_some_fst, hworld]
    refine ⟨ops, hops, fun p hp => ?_⟩
    obtain rfl := Option.some.inj hp
    refine hcalls.imp_right fun h => h.imp_left fun hfail => ?_
    cases hr : (changeAll m k wiring.change true o w).1 with
    | none => exact nofun
    | some r =>
      have hnot : r.1 = false := by simpa [hfail] using hok r hr
      simp [hnot]

/-- What one turn of a worker found under its key, and what it showed to which handler. -/
structure Delivery (σ τ : Type) where
  found : Except StoreError (Option (Object σ τ))
  calls : List (Object σ τ × Verdict (Object σ τ))

def delivery (wiring : Wiring ω σ τ) (m : Moment) (k : Key) (c : Controller σ τ) (w : ω) :
    Delivery σ τ :=
  match wiring.read k w with
  | (.error e, _) => ⟨.error e, []⟩
  | (.ok none, _) => ⟨.ok none, []⟩
  | (.ok (some o), w) =>
    match settleTombstone wiring m k (some o) c w with
    | (none, _) => ⟨.ok (some o), []⟩
    | (some _, _, w) => ⟨.ok (some o), (calls m k wiring.change o w).1⟩

def undisturbed (wiring : Wiring ω σ τ) (o : Object σ τ) : Delivery σ τ :=
  ⟨.ok (some o), wiring.change.map fun _ => (o, .ok .unchanged)⟩

/-- What handling a key leaves: all that was pending, all that was written, and the key itself
unless its object was left undisturbed. -/
structure Handled (store : ω → Store σ τ) (wiring : Wiring ω σ τ) (busy : List Key) (k : Key)
    (c : Controller σ τ) (w : ω) (d : Delivery σ τ) (c' : Controller σ τ) (w' : ω) : Prop where
  keyed : (store w').Keyed
  follows : c'.Follows (store w') busy
  pending : ∀ j, c.Pending (store w) j → c'.Pending (store w') j
  same : ∀ j, (store w').get? j = (store w).get? j ∨ c'.Pending (store w') j
  shown : ∀ o, (store w').get? k = some o → c'.Pending (store w') k ∨ d = undisturbed wiring o

omit [DecidableEq σ] in
theorem Pending.congr {c' : Controller σ τ} (hp : c.Pending s j) (h : c.Resembles c') :
    c'.Pending s j := by
  unfold Pending at hp ⊢
  rw [h.queue, h.position, h.abandoned]
  exact hp

/-- The end of a turn, with success, with a failure, or none because the worker broke off. -/
def ended (result : Option Bool) (m : Moment) (k : Key) (c : Controller σ τ) : Controller σ τ :=
  result.elim (c.abandon k) fun ok => c.conclude ok m k

omit [DecidableEq σ] in
theorem Follows.ended (h : c.Follows s busy) (hk : k ∈ busy) (result : Option Bool) (m : Moment) :
    (c.ended result m k).Follows s busy ∧ (∀ j, c.Pending s j → (c.ended result m k).Pending s j) ∧
      (result ≠ some true → (c.ended result m k).Pending s k) := by
  rcases result with _ | _ | _
  · exact ⟨h.abandon hk, fun j hj => hj.abandon k, fun _ => pending_abandon c s k⟩
  · obtain ⟨hfollows, hback, hkept⟩ := h.retry hk m
    exact ⟨hfollows, hkept, fun _ => hback⟩
  · refine ⟨?_, fun j hj => hj, nofun⟩
    exact h.onQueue (h.queue.queue.congr rfl rfl rfl rfl) rfl h.abandoned

/-- A turn that does operations on the store and then ends has handled its key, when it showed what
there was. -/
theorem handled_ended {c' : Controller σ τ} {w' : ω} {d : Delivery σ τ} {result : Option Bool}
    (h : c.Follows (store w) busy) (hb : k ∈ busy) (hk : (store w).Keyed)
    (hops : store w' = (store w).after ops) (hc : c.Resembles c') (m : Moment)
    (hshown : ∀ o, (store w).get? k = some o →
      (store w).WritesIn ops k ∨ result ≠ some true ∨ d = undisturbed wiring o) :
    Handled store wiring busy k c w d (c'.ended result m k) w' := by
  have hf : c'.Follows (store w') busy :=
    (hops ▸ h.after hk ops).congr hc.queue hc.position hc.abandoned
  obtain ⟨hfollows, hkept, hback⟩ := hf.ended hb result m
  have hpending {j : Key} (hj : c.Pending ((store w).after ops) j) :
      (c'.ended result m k).Pending (store w') j :=
    hkept j ((hops ▸ hj).congr hc)
  constructor
  · exact hops ▸ hk.after ops
  · exact hfollows
  · intro j hj
    exact hpending (hj.after h hk ops)
  · intro j
    rw [hops]
    exact (same_or_pending_after h hk ops j).imp_right fun hj => hops ▸ hpending hj
  · intro o ho
    by_cases hw : (store w).WritesIn ops k
    · exact .inl (hpending (pending_of_writesIn h hk hw))
    · rw [hops, Store.after_get?_of_not_writesIn hk hw] at ho
      rcases (hshown o ho).resolve_left hw with hok | hd
      · exact .inl (hback hok)
      · exact .inr hd

omit [DecidableEq σ] in
/-- A turn on a key that was read, whose tombstone was settled and whose handlers were called. -/
theorem process_of_turn {live : Option (Object σ τ)} {removed : Bool} {changed : Option Bool}
    {c₁ c₂ : Controller σ τ} {w₁ w₂ w₃ : ω} (hr : wiring.read k w = (.ok live, w₁))
    (ht : settleTombstone wiring m k live c w₁ = (some removed, c₁, w₂))
    (hl : settleLive wiring m k live c₁ w₂ = (changed, c₂, w₃)) :
    process wiring m k c w = (c₂.ended (changed.map (removed && ·)) m k, w₃) := by
  unfold process
  simp only [hr, ht, hl]
  cases changed <;> rfl

omit [DecidableEq σ] in
theorem delivery_of_turn {o : Object σ τ} {removed : Bool} {c₁ : Controller σ τ} {w₁ w₂ : ω}
    (hr : wiring.read k w = (.ok (some o), w₁))
    (ht : settleTombstone wiring m k (some o) c w₁ = (some removed, c₁, w₂)) :
    delivery wiring m k c w = ⟨.ok (some o), (calls m k wiring.change o w₂).1⟩ := by
  unfold delivery
  simp only [hr, ht]

theorem process_handled (hc : wiring.Candid store) (h : c.Follows (store w) busy) (hb : k ∈ busy)
    (hk : (store w).Keyed) (m : Moment) :
    Handled store wiring busy k c w (delivery wiring m k c w) (process wiring m k c w).1
      (process wiring m k c w).2 := by
  obtain ⟨hread, hlive⟩ := hc.read k w
  cases hr : wiring.read k w with
  | mk found w₁ =>
  rw [hr] at hread hlive
  replace hread : store w₁ = store w := hread
  cases found with
  | error e =>
    have hprocess : process wiring m k c w = (c.ended (some false) m k, w₁) := by
      unfold process
      rw [hr]
      rfl
    have hops : store w₁ = (store w).after [] := hread
    simp only [hprocess]
    refine handled_ended h hb hk hops (.refl c) m fun _ _ => .inr (.inl ?_)
    simp
  | ok live =>
  have hfound : live = (store w).get? k := hlive live rfl
  obtain ⟨ops, hops⟩ := settleTombstone_store (m := m) (k := k) hc (hread ▸ hk) live c
  have hsame := settleTombstone_controller wiring m k live c w₁
  cases ht : settleTombstone wiring m k live c w₁ with
  | mk removed rest =>
  obtain ⟨c₁, w₂⟩ := rest
  simp only [ht] at hops hsame
  replace hops : store w₂ = (store w).after ops := hread ▸ hops
  cases removed with
  | none =>
    have hprocess : process wiring m k c w = (c₁.ended none m k, w₂) := by
      unfold process
      simp only [hr, ht]
      rfl
    simp only [hprocess]
    refine handled_ended h hb hk hops hsame m fun _ _ => .inr (.inl ?_)
    simp
  | some removed =>
  have hkeyed : (store w₂).Keyed := hops ▸ hk.after ops
  obtain ⟨more, hmore, hshown⟩ :=
    settleLive_store hc hkeyed (fun o ho => hk k o (hfound.symm.trans ho)) m c₁
  have hsame' := settleLive_controller wiring m k live c₁ w₂
  cases hl : settleLive wiring m k live c₁ w₂ with
  | mk changed rest =>
  obtain ⟨c₂, w₃⟩ := rest
  rw [hl] at hmore hshown hsame'
  have hstore : store w₃ = (store w).after (ops ++ more) := by
    rw [Store.after_append, ← hops]
    exact hmore
  rw [process_of_turn hr ht hl]
  refine handled_ended h hb hk hstore (hsame.trans hsame') m fun o ho => ?_
  obtain rfl : live = some o := hfound.trans ho
  rw [delivery_of_turn hr ht, Store.writesIn_append, ← hops]
  rcases hshown o rfl with hw | hfail | hquiet
  · exact .inl (.inr hw)
  · right
    left
    cases changed with
    | none => exact nofun
    | some ok =>
      have hnot : ok = false := by simpa using hfail
      simp [hnot]
  · right
    right
    rw [hquiet]
    rfl

end Controller
end ModelTemplates
