import ModelTemplates.Proofs.Store.History
/-! All that is asked of a store over time. Resource versions are given out in increasing order and
never again, so a write that is based on a state goes through exactly when that state is still the
one that is stored. -/
namespace ModelTemplates.Store

/-- What can be asked of a store. The store draws the identifier of a new object and reads the
clock. -/
inductive Operation (σ τ : Type) where
  | get (k : Key)
  | list (space : Option String) (selector : Selector)
  | create (o : Object σ τ) (uid : Uid) (now : Timestamp)
  | update (o : Object σ τ)
  | updateStatus (o : Object σ τ)
  | delete (k : Key) (now : Timestamp)

def Operation.target {σ τ : Type} : Operation σ τ → Option Key
  | .get _ => none
  | .list _ _ => none
  | .create o _ _ => some o.key
  | .update o => some o.key
  | .updateStatus o => some o.key
  | .delete k _ => some k

abbrev Reply (σ τ : Type) := Except StoreError (List (Object σ τ)) × Store σ τ

variable {σ τ : Type} {s t : Store σ τ} {op first last : Operation σ τ}
  {ops earlier between : List (Operation σ τ)} {o p q : Object σ τ} {k : Key} {r : Reply σ τ}
  {past : List (Object σ τ)}

inductive Effect (s : Store σ τ) (op : Operation σ τ) : Reply σ τ → Prop where
  | read {os : List (Object σ τ)} (ht : op.target = none) (hos : ∀ o ∈ os, ∃ k, s.get? k = some o) :
      Effect s op (.ok os, s)
  | refused (e : StoreError) : Effect s op (.error e, s)
  | stored {o : Object σ τ} (ht : op.target = some o.key)
      (hv : o.metadata.resourceVersion = s.nextVersion) :
      Effect s op (.ok [o], s.put o)
  | removed {o : Object σ τ} (now : Timestamp) (ht : op.target = some o.key) :
      Effect s op (.ok [], s.without o now)

theorem Effect.keyed (he : Effect s op r) (h : s.Keyed) : r.2.Keyed := by
  cases he with
  | read => exact h
  | refused => exact h
  | stored => exact h.put _
  | removed now => exact h.without _ now

theorem Effect.writes_le (he : Effect s op r) : s.writes ≤ r.2.writes := by
  cases he with
  | read => exact Nat.le_refl _
  | refused => exact Nat.le_refl _
  | stored => exact Nat.le_succ _
  | removed => exact Nat.le_succ _

/-- The states seen so far are told apart by their resource versions, each of which was given out by
a write. -/
structure Chronicle (s : Store σ τ) (past : List (Object σ τ)) : Prop extends s.Recorded past where
  counted : s.lastVersion.toNat ≤ s.writes

namespace Chronicle

theorem make? {kind : Kind} {capacity : Nat} (h : Store.make? kind capacity = some s) :
    s.Chronicle [] := by
  simp only [Store.make?, Option.map_eq_some_iff] at h
  obtain ⟨c, -, rfl⟩ := h
  exact ⟨recorded_of_empty rfl, Nat.le_refl _⟩

theorem hasRoom (h : s.Chronicle past) (hw : s.writes + 1 < UInt64.size) : s.HasRoom := by
  have hc := h.counted
  show s.lastVersion.toNat + 1 < UInt64.size
  omega

/-- A resource version that is given out is larger than those before it. -/
theorem lt_nextVersion (h : s.Chronicle past) (hw : s.writes + 1 < UInt64.size) (hp : p ∈ past) :
    p.metadata.resourceVersion < s.nextVersion := by
  have hb := h.bounded hp
  rw [UInt64.lt_iff_toNat_lt, nextVersion_toNat (h.hasRoom hw)]
  omega

theorem effect (h : s.Chronicle past) (he : Effect s op r) (hw : r.2.writes < UInt64.size) :
    r.2.Chronicle (r.1.toOption.getD [] ++ past) := by
  cases he with
  | @read os ht hos =>
    have hseen : ∀ o, o ∈ os ++ past ↔ o ∈ past := by
      intro o
      have hold : o ∈ os → o ∈ past := fun ho => (hos o ho).elim fun _ hk => h.held hk
      simpa using hold
    exact ⟨h.toRecorded.congr hseen, h.counted⟩
  | refused e => exact h
  | stored ht hv =>
    have hroom := h.hasRoom hw
    have hc := h.counted
    constructor
    · exact h.put hroom hv
    · show s.nextVersion.toNat ≤ s.writes + 1
      rw [nextVersion_toNat hroom]
      omega
  | removed now ht => exact ⟨h.without _ now, Nat.le_succ_of_le h.counted⟩

/-- What a write returns has a resource version that was never seen. -/
theorem lt_returned (h : s.Chronicle past) (he : Effect s op r) (hw : r.2.writes < UInt64.size)
    (ht : op.target ≠ none) (hq : q ∈ r.1.toOption.getD []) (hp : p ∈ past) :
    p.metadata.resourceVersion < q.metadata.resourceVersion := by
  cases he with
  | read hn => exact absurd hn ht
  | refused e => simp [Except.toOption] at hq
  | stored _ hv =>
    obtain rfl : q = _ := by simpa [Except.toOption] using hq
    rw [hv]
    exact h.lt_nextVersion hw hp
  | removed => simp [Except.toOption] at hq

/-- A state that was seen before and is found was found before, and its key was not written. -/
theorem kept (h : s.Chronicle past) (he : Effect s op r) (hw : r.2.writes < UInt64.size)
    (hp : p ∈ past) (hk : r.2.get? k = some p) :
    s.get? k = some p ∧ ¬ (op.target = some k ∧ r.1.isOk = true) := by
  cases he with
  | read ht =>
    constructor
    · exact hk
    · simp [ht]
  | refused e =>
    constructor
    · exact hk
    · simp [Except.isOk, Except.toBool]
  | stored ht hv =>
    rcases get?_put_cases hk with ⟨-, rfl⟩ | ⟨hne, hk⟩
    · have := h.lt_nextVersion hw hp
      exact absurd hv (UInt64.ne_of_lt this)
    · constructor
      · exact hk
      · simp [ht, hne.symm]
  | removed now ht =>
    rw [without_get?] at hk
    split at hk
    · contradiction
    · next hne =>
      constructor
      · exact hk
      · simp [ht, Ne.symm hne]

end Chronicle

def commit (s : Store σ τ) : Except StoreError (Object σ τ × Store σ τ) → Reply σ τ
  | .ok (o, t) => (.ok [o], t)
  | .error e => (.error e, s)

def discard (s : Store σ τ) : Except StoreError (Store σ τ) → Reply σ τ
  | .ok t => (.ok [], t)
  | .error e => (.error e, s)

variable [DecidableEq σ]

def apply (s : Store σ τ) : Operation σ τ → Reply σ τ
  | .get k => (.ok (s.get? k).toList, s)
  | .list space selector => (.ok (s.list space selector), s)
  | .create o uid now => s.commit (s.create o uid now)
  | .update o => s.commit (s.update o)
  | .updateStatus o => s.commit (s.updateStatus o)
  | .delete k now => s.discard (s.delete k now)

def returned (s : Store σ τ) (op : Operation σ τ) : List (Object σ τ) :=
  (s.apply op).1.toOption.getD []

def Writes (s : Store σ τ) (op : Operation σ τ) (k : Key) : Prop :=
  op.target = some k ∧ (s.apply op).1.isOk = true

theorem effect (h : s.Keyed) (op : Operation σ τ) : Effect s op (s.apply op) := by
  cases op with
  | get k =>
    apply Effect.read rfl
    intro o ho
    exact ⟨k, Option.mem_toList.mp ho⟩
  | list space selector =>
    apply Effect.read rfl
    intro o ho
    exact (Table.mem_values_iff _ _).mp (List.mem_filter.mp ho).1
  | create o uid now =>
    simp only [apply]
    cases hr : s.create o uid now with
    | error e => exact .refused e
    | ok r =>
      obtain ⟨p, t⟩ := r
      obtain ⟨-, rfl, rfl⟩ := create_eq_ok.mp hr
      exact .stored rfl rfl
  | update o =>
    simp only [apply]
    cases hr : s.update o with
    | error e => exact .refused e
    | ok r =>
      obtain ⟨p, t⟩ := r
      obtain ⟨c, -, rfl, rfl⟩ := update_eq_ok.mp hr
      exact .stored rfl rfl
  | updateStatus o =>
    simp only [apply]
    cases hr : s.updateStatus o with
    | error e => exact .refused e
    | ok r =>
      obtain ⟨p, t⟩ := r
      obtain ⟨c, hf, rfl, rfl⟩ := updateStatus_eq_ok.mp hr
      have hc : c.key = o.key := h _ _ (fenced_eq_ok.mp hf).1
      exact .stored (congrArg some hc.symm) rfl
  | delete k now =>
    simp only [apply]
    cases hr : s.delete k now with
    | error e => exact .refused e
    | ok t =>
      obtain ⟨c, hc, rfl⟩ := (delete_eq_ok h).mp hr
      exact .removed now (congrArg some (h _ _ hc).symm)

/-- Both kinds of update go through exactly when the fence lets them. -/
theorem isOk_apply_of_fenced (ho : op = .update o ∨ op = .updateStatus o) :
    (s.apply op).1.isOk = true ↔ ∃ c, s.fenced o = .ok c := by
  rcases ho with rfl | rfl
  · simp only [apply, update]
    cases s.fenced o <;> simp [bind, Except.bind, commit, Except.isOk, Except.toBool]
  · simp only [apply, updateStatus]
    cases s.fenced o <;> simp [bind, Except.bind, commit, Except.isOk, Except.toBool]

theorem Keyed.apply (h : s.Keyed) (op : Operation σ τ) : (s.apply op).2.Keyed :=
  (effect h op).keyed h

def after (s : Store σ τ) (ops : List (Operation σ τ)) : Store σ τ :=
  ops.foldl (fun s op => (s.apply op).2) s

@[simp] theorem after_nil (s : Store σ τ) : s.after [] = s := rfl

@[simp] theorem after_cons (s : Store σ τ) (op : Operation σ τ) (ops : List (Operation σ τ)) :
    s.after (op :: ops) = (s.apply op).2.after ops := rfl

theorem after_append (s : Store σ τ) (ops more : List (Operation σ τ)) :
    s.after (ops ++ more) = (s.after ops).after more := List.foldl_append

theorem Keyed.after (h : s.Keyed) (ops : List (Operation σ τ)) : (s.after ops).Keyed := by
  induction ops generalizing s with
  | nil => exact h
  | cons op ops ih => exact ih (h.apply op)

theorem writes_le_after (h : s.Keyed) (ops : List (Operation σ τ)) :
    s.writes ≤ (s.after ops).writes := by
  induction ops generalizing s with
  | nil => exact Nat.le_refl _
  | cons op ops ih => exact Nat.le_trans (effect h op).writes_le (ih (h.apply op))

def WritesIn (s : Store σ τ) : List (Operation σ τ) → Key → Prop
  | [], _ => False
  | op :: ops, k => s.Writes op k ∨ (s.apply op).2.WritesIn ops k

theorem writesIn_append (s : Store σ τ) (ops more : List (Operation σ τ)) (k : Key) :
    s.WritesIn (ops ++ more) k ↔ s.WritesIn ops k ∨ (s.after ops).WritesIn more k := by
  induction ops generalizing s with
  | nil => simp [WritesIn]
  | cons op ops ih => simp only [List.cons_append, WritesIn, ih, after_cons, or_assoc]

theorem apply_get?_of_not_writes (h : s.Keyed) (hw : ¬ s.Writes op k) :
    (s.apply op).2.get? k = s.get? k := by
  have he := effect h op
  unfold Writes at hw
  generalize s.apply op = r at he hw ⊢
  cases he with
  | read => rfl
  | refused => rfl
  | @stored o ht hv =>
    have hne : k ≠ o.key := by
      rintro rfl
      exact hw ⟨ht, rfl⟩
    rw [put_get?, if_neg hne]
  | @removed o now ht =>
    have hne : k ≠ o.key := by
      rintro rfl
      exact hw ⟨ht, rfl⟩
    rw [without_get?, if_neg hne]

theorem after_get?_of_not_writesIn (h : s.Keyed) (hw : ¬ s.WritesIn ops k) :
    (s.after ops).get? k = s.get? k := by
  induction ops generalizing s with
  | nil => rfl
  | cons op ops ih =>
    rw [WritesIn, not_or] at hw
    exact (ih (h.apply op) hw.2).trans (apply_get?_of_not_writes h hw.1)

namespace Chronicle

/-- A write that is based on a state goes through exactly when that state is stored. -/
theorem isOk_iff (h : s.Chronicle past) (hp : p ∈ past) (ho : op = .update o ∨ op = .updateStatus o)
    (hk : o.key = p.key) (hv : o.metadata.resourceVersion = p.metadata.resourceVersion) :
    (s.apply op).1.isOk = true ↔ s.get? p.key = some p := by
  rw [isOk_apply_of_fenced ho]
  constructor
  · rintro ⟨c, hc⟩
    obtain rfl := h.fenced hp hv hc
    exact hk ▸ (fenced_eq_ok.mp hc).1
  · intro hg
    exact ⟨p, fenced_eq_ok.mpr ⟨hk ▸ hg, hv⟩⟩

theorem writes_lt_head (h : s.Keyed) (hw : (s.after (op :: ops)).writes < UInt64.size) :
    (s.apply op).2.writes < UInt64.size :=
  Nat.lt_of_le_of_lt (writes_le_after (h.apply op) ops) hw

theorem after (h : s.Chronicle past) (hw : (s.after ops).writes < UInt64.size) :
    ∃ more, (s.after ops).Chronicle (more ++ past) := by
  induction ops generalizing s past with
  | nil => exact ⟨[], h⟩
  | cons op ops ih =>
    obtain ⟨more, hm⟩ := ih (h.effect (Store.effect h.keyed op) (writes_lt_head h.keyed hw)) hw
    exact ⟨more ++ s.returned op, by rwa [List.append_assoc]⟩

theorem kept_after (h : s.Chronicle past) (hw : (s.after ops).writes < UInt64.size) (hp : p ∈ past)
    (hk : (s.after ops).get? k = some p) : s.get? k = some p := by
  induction ops generalizing s past with
  | nil => exact hk
  | cons op ops ih =>
    have he := Store.effect h.keyed op
    have hop := writes_lt_head h.keyed hw
    have hmid := ih (h.effect he hop) hw (List.mem_append_right _ hp) hk
    exact (h.kept he hop hp hmid).1

/-- At every operation on the way the state was there, and its key was not written. -/
theorem kept_throughout (h : s.Chronicle past) (hw : (s.after ops).writes < UInt64.size)
    (hp : p ∈ past) (hk : (s.after ops).get? k = some p) {before rest : List (Operation σ τ)}
    (hops : ops = before ++ op :: rest) :
    (s.after before).get? k = some p ∧ ¬ (s.after before).Writes op k := by
  rw [hops, after_append] at hw hk
  have hkeyed : (s.after before).Keyed := h.keyed.after before
  have he := Store.effect hkeyed op
  have hop := writes_lt_head hkeyed hw
  obtain ⟨more, hm⟩ := h.after (Nat.lt_of_le_of_lt he.writes_le hop)
  have hseen : p ∈ more ++ past := List.mem_append_right _ hp
  have hafter := (hm.effect he hop).kept_after hw (List.mem_append_right _ hseen) hk
  exact hm.kept he hop hseen hafter

end Chronicle

/-- Until every resource version is given out, a write gets a larger one than all before it, and a
write that is based on a state that was returned goes through exactly when that state is still
stored, so that its key was not written since. -/
theorem fence_admits_only_stored {kind : Kind} {capacity : Nat} (hs : make? kind capacity = some s)
    (ht : s.after (earlier ++ first :: between) = t) (hw : (t.apply last).2.writes < UInt64.size)
    (hp : p ∈ (s.after earlier).returned first) :
    (∀ q ∈ t.returned last, last.target ≠ none →
      p.metadata.resourceVersion < q.metadata.resourceVersion) ∧
    ∀ o, last = .update o ∨ last = .updateStatus o → o.key = p.key →
      o.metadata.resourceVersion = p.metadata.resourceVersion →
      ((t.apply last).1.isOk = true ↔ t.get? p.key = some p) ∧
      ((t.apply last).1.isOk = true → ∀ before op rest, between = before ++ op :: rest →
        (s.after (earlier ++ first :: before)).get? p.key = some p ∧
          ¬ (s.after (earlier ++ first :: before)).Writes op p.key) := by
  have hopen : s.Chronicle [] := .make? hs
  have hkeyed : (s.after earlier).Keyed := hopen.keyed.after earlier
  have he := effect hkeyed first
  have hsplit (ops : List (Operation σ τ)) :
      s.after (earlier ++ first :: ops) = ((s.after earlier).apply first).2.after ops := by
    rw [after_append, after_cons]
  rw [hsplit] at ht
  subst ht
  have hlast := effect ((hkeyed.apply first).after between) last
  have hbetween := Nat.lt_of_le_of_lt hlast.writes_le hw
  have hfirst := Nat.lt_of_le_of_lt (writes_le_after (hkeyed.apply first) between) hbetween
  obtain ⟨past, hpast⟩ := hopen.after (Nat.lt_of_le_of_lt he.writes_le hfirst)
  have hthen := hpast.effect he hfirst
  have hp' := List.mem_append_left (past ++ []) hp
  obtain ⟨more, hnow⟩ := hthen.after hbetween
  have hseen := List.mem_append_right more hp'
  constructor
  · intro q hq hl
    exact hnow.lt_returned hlast hw hl hq hseen
  · intro o ho hkey hv
    have hiff := hnow.isOk_iff hseen ho hkey hv
    constructor
    · exact hiff
    · intro hok before op rest hb
      rw [hsplit]
      exact hthen.kept_throughout hbetween hp' (hiff.mp hok) hb

def subject : Template := ⟨.named "models" "a", .empty, .empty⟩

def stored : Template := (empty .template).created subject ⟨1⟩ default

def edited : Template := { stored with spec := ⟨some "edited", none⟩ }

def other : Template := ⟨.named "models" "b", .empty, .empty⟩

/-- Another template is created, deleted and created again, and a write that is based on nothing is
refused. -/
def visits : List (Operation TemplateSpec TemplateStatus) :=
  [.create other ⟨2⟩ default, .delete other.key default, .create other ⟨3⟩ default, .update subject]

theorem fence_admits_only_stored_edited :
    ∃ s : TemplateStore, s =
      (empty .template).after ([.create subject ⟨1⟩ default] ++ .get subject.key :: visits) ∧
      (s.apply (.update edited)).1.isOk = true ∧
      ((empty .template).after [.create subject ⟨1⟩ default, .get subject.key]).get? stored.key =
      some stored := by
  obtain ⟨-, hfence⟩ :=
    @fence_admits_only_stored _ _ (empty .template) _ (.get subject.key) (.update edited)
    [.create subject ⟨1⟩ default] visits stored _ .template defaultWatchCapacity rfl rfl
      (by decide) (by decide)
  obtain ⟨hiff, hbetween⟩ := hfence edited (.inl rfl) rfl rfl
  have hok := hiff.mpr (by decide)
  exact ⟨_, rfl, hok, (hbetween hok [] _ _ rfl).1⟩

end ModelTemplates.Store
