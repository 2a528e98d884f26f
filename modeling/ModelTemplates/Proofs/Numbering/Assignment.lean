import Mathlib.Logic.Relation
import ModelTemplates.Proofs.Handler.Numbering
import ModelTemplates.Proofs.Plan.Handlers
import ModelTemplates.Proofs.Plan.Requests
/-! Many workers number the versions of one template, request by request, and the process may end
between any two of them. Numbers stay apart exactly as long as a rebuilt ledger counts them for the
template. -/
namespace ModelTemplates.Assignment
open ModelTemplates.Numbering (Member)

inductive Role where
  /-- Without the lock. -/
  | outside
  | holding
  /-- With the lock, and the ledger read. -/
  | informed (n : UInt32)
  /-- With the lock, and a number stored that the ledger does not have. -/
  | ahead
deriving DecidableEq

def Role.holds : Role → Bool
  | .outside => false
  | _ => true

variable {t : Template} {past more : List Version} {v v' c : Version} {now : Timestamp} {n : UInt32}
  {u uid : Uid} {p : Plan (Verdict Version)} {ρ : Role} {d : VersionStore}

/-- A version that a worker may number. -/
structure Eligible (t : Template) (past : List Version) (v : Version) : Prop where
  seen : v ∈ past
  named : v.templateKey = t.key
  linked : v.linkedTo t = true
  unassigned : v.assigned = false
  kept : v.deleting = false

/-- What a worker still has to do, by where it is. The status is written after the ledger is read,
the ledger advances after the status is written, and all of it happens under the lock. -/
inductive Stage (t : Template) (past : List Version) : Role → Plan (Verdict Version) → Prop where
  | ended (a : Verdict Version) : Stage t past .outside (.done a)
  | looking {next : Except StoreError (Option Template) → Plan (Verdict Version)} :
      Stage t past .outside (next (.ok (some t))) →
      Stage t past .outside (.ask (.template t.key) next)
  | waiting {next : Unit → Plan (Verdict Version)} :
      Stage t past .holding (next ()) → Stage t past .outside (.ask (.lock t.key) next)
  | reading {next : UInt32 → Plan (Verdict Version)} :
      (∀ n, Stage t past (.informed n) (next n)) →
      Stage t past .holding (.ask (.latest t.key t.metadata.uid) next)
  | writing {v : Version} {n m : UInt32} {now : Timestamp}
      {next : Except StoreError Version → Plan (Verdict Version)} :
      Eligible t past v → Counter.next? n = some m →
      (∀ e, Stage t past .holding (next (.error e))) →
      (∀ stored, Stage t past .ahead (next (.ok stored))) →
      Stage t past (.informed n) (.ask (.updateVersionStatus (v.numbered m now)) next)
  | abandoning {n : UInt32} {next : Unit → Plan (Verdict Version)} :
      Stage t past .outside (next ()) → Stage t past (.informed n) (.ask (.unlock t.key) next)
  | counting {next : Option UInt32 → Plan (Verdict Version)} :
      (∀ counted, Stage t past .holding (next counted)) →
      Stage t past .ahead (.ask (.advance t.key t.metadata.uid) next)
  | leaving {next : Unit → Plan (Verdict Version)} :
      Stage t past .outside (next ()) → Stage t past .holding (.ask (.unlock t.key) next)
  | enqueuing {k : Key} {next : Unit → Plan (Verdict Version)} :
      Stage t past .outside (next ()) → Stage t past .outside (.ask (.enqueue k) next)
  | telling {e : Event} {next : Unit → Plan (Verdict Version)} :
      Stage t past .outside (next ()) → Stage t past .outside (.ask (.publish e) next)

theorem Eligible.mono (h : Eligible t past v) (hm : past ⊆ more) : Eligible t more v :=
  ⟨hm h.seen, h.named, h.linked, h.unassigned, h.kept⟩

theorem Stage.mono (h : Stage t past ρ p) (hm : past ⊆ more) : Stage t more ρ p := by
  induction h with
  | ended a => exact .ended a
  | looking _ ih => exact .looking ih
  | waiting _ ih => exact .waiting ih
  | reading _ ih => exact .reading ih
  | writing hv hn _ _ ihe iho => exact .writing (hv.mono hm) hn ihe iho
  | abandoning _ ih => exact .abandoning ih
  | counting _ ih => exact .counting ih
  | leaving _ ih => exact .leaving ih
  | enqueuing _ ih => exact .enqueuing ih
  | telling _ ih => exact .telling ih

theorem stage_assign (h : Eligible t past v) (now : Timestamp) :
    Stage t past .outside (v.assign t now) := by
  refine .waiting (.reading fun n => ?_)
  change Stage t past (.informed n) (v.recordAfter t n now)
  unfold Version.recordAfter
  cases hn : Counter.next? n with
  | none => exact .abandoning (.ended _)
  | some m =>
    refine .writing h hn (fun e => .leaving (.ended _)) fun stored => ?_
    exact .counting fun _ => .leaving (.enqueuing (.telling (.ended _)))

theorem stage_number (hv : v ∈ past) (hk : v.templateKey = t.key) (hl : v.linkedTo t = true)
    (now : Timestamp) :
    Stage t past .outside (v.number now) := by
  unfold Version.number
  split
  · exact .ended _
  · next hg =>
    rw [Bool.or_eq_true, not_or, Bool.not_eq_true, Bool.not_eq_true] at hg
    rw [hk]
    refine .looking ?_
    change Stage t past .outside (if v.linkedTo t then v.assign t now else v.link t now)
    rw [if_pos hl]
    exact stage_assign ⟨hv, hk, hl, hg.2, hg.1⟩ now

/-- All that a rebuilt ledger would count under the name of the template, it would count for another
one, though there is a version that the template owns or may number. -/
structure Hidden (d : VersionStore) (t : Template) (uid : Uid) : Prop where
  all : ∀ v : Version, d.get? v.key = some v → v.templateKey = t.key → v.assigned = true →
    v.ownerUid = some uid
  any : ∃ v : Version, d.get? v.key = some v ∧ v.templateKey = t.key ∧ v.ownerUid = some uid ∧
    (v.assigned = true ∧ v.ownedBy t = true ∨ v.linkedTo t = true ∧ v.deleting = false)

theorem Hidden.of_numbered (hv : d.get? v.key = some v) (he : Eligible t past v)
    (h : Hidden (d.put (d.restated v (v.numbered n now))) t uid) : Hidden d t uid := by
  obtain ⟨hall, y, hy, hk, ho, hor⟩ := h
  constructor
  · intro x hx hxk ha
    refine hall x ?_ hxk ha
    rw [Store.put_get?, if_neg]
    · exact hx
    · intro e
      obtain rfl := Option.some.inj (hv.symm.trans (e ▸ hx))
      exact absurd ha (by simp [he.unassigned])
  · rw [Store.put_get?] at hy
    split at hy
    · obtain rfl := Option.some.inj hy
      exact ⟨v, hv, hk, ho, .inr ⟨he.linked, he.kept⟩⟩
    · exact ⟨y, hy, hk, ho, hor⟩

/-- A rebuilt ledger has the numbers of a template, unless they are hidden. -/
theorem rebuilt_covers {l : Ledger} (hh : ∀ uid, u ≠ uid → ¬ Hidden d t uid)
    (hv : Member d t v) : v.status.version ≤ (l.rebuild d.all).latest t.key (some u) := by
  have number {x : Version} (ha : x.assigned = true) :
      x.assignedNumber = some x.status.version := by
    rw [Version.assignedNumber, if_pos ha]
  have stored {x : Version} (hx : d.get? x.key = some x) : x ∈ d.all :=
    Store.mem_all_iff.mpr ⟨_, hx⟩
  obtain ⟨e, he, hle, howner⟩ :=
    Ledger.rebuild_covers (l := l) (stored hv.stored) (number hv.assigned)
  rw [hv.named] at he
  suffices hc : e.owner = none ∨ e.owner = some u by
    rw [Ledger.latest_of_counts he (Ledger.countsFor_some.mpr hc)]
    exact hle
  cases ho : e.owner with
  | none => exact .inl rfl
  | some uid =>
    refine .inr (congrArg some (Decidable.byContradiction fun hne =>
      hh uid (Ne.symm hne) ⟨fun x hx hk ha => ?_, ?_⟩))
    · obtain ⟨e', he', -, howner'⟩ := Ledger.rebuild_covers (l := l) (stored hx) (number ha)
      obtain rfl := Option.some.inj (he.symm.trans (hk ▸ he'))
      exact (howner'.resolve_left (by simp [ho])).symm.trans ho
    · exact ⟨v, hv.stored, hv.named, (howner.resolve_left (by simp [ho])).symm.trans ho,
        .inl ⟨hv.assigned, hv.owned⟩⟩

/-- A step of the workers on a template, or the end of all of them and a new start. -/
inductive Step (t : Template) (s : VersionHandlers) : VersionHandlers → Prop where
  | deliver (v : Version) (now : Timestamp) :
      v ∈ s.seen → v.templateKey = t.key → v.linkedTo t = true → Step t s (s.join (v.number now))
  | turn {s' : VersionHandlers} : s.world.Unspent → s.Turn s' → Step t s s'
  | crash : Step t s { s with world := s.world.forget.rebuilt, plans := [] }

abbrev Run (t : Template) : VersionHandlers → VersionHandlers → Prop :=
  Relation.ReflTransGen (Step t)

abbrev Post := Role × Plan (Verdict Version)

def holders (posts : List Post) : Nat := posts.countP fun p => p.1.holds

def held (k : Key) (w : World) : Nat := if k ∈ w.locked then 1 else 0

def lead (posts : List Post) : Nat := posts.countP fun p => p.1 = .ahead

variable {posts before after : List Post} {ρ' : Role} {p' : Plan (Verdict Version)}

theorem holders_middle (before after : List Post) (ρ : Role) (p : Plan (Verdict Version)) :
    holders (before ++ (ρ, p) :: after) = holders (before ++ after) + ρ.holds.toNat := by
  simp only [holders, List.countP_append, List.countP_cons]
  cases ρ.holds with
  | false => simp
  | true => simp; omega

theorem lead_middle (before after : List Post) (ρ : Role) (p : Plan (Verdict Version)) :
    lead (before ++ (ρ, p) :: after) = lead (before ++ after) + if ρ = .ahead then 1 else 0 := by
  simp only [lead, List.countP_append, List.countP_cons, decide_eq_true_eq]
  omega

theorem lead_le_holders (posts : List Post) : lead posts ≤ holders posts := by
  refine List.countP_mono_left fun p _ h => ?_
  rw [decide_eq_true_eq] at h
  rw [h]
  rfl

/-- What every step keeps. One worker at most holds the lock, and what it read is still so; it may
have stored one number that the ledger does not have. -/
structure Sound (t : Template) (u : Uid) (posts : List Post) (s : VersionHandlers) : Prop where
  recorded : s.world.stores.versions.Recorded s.seen
  template : s.world.stores.templates.get? t.key = some t
  uid : t.metadata.uid = some u
  plans : posts.map Prod.snd = s.plans
  stages : ∀ p ∈ posts, Stage t s.seen p.1 p.2
  lock : holders posts = held t.key s.world
  informed : ∀ p ∈ posts, ∀ n, p.1 = .informed n → n = s.world.ledger.latest t.key (some u)
  apart : ∀ v v', Member s.world.stores.versions t v → Member s.world.stores.versions t v' →
    v.status.version = v'.status.version → v = v'
  counted : ∀ v, Member s.world.stores.versions t v →
    v.status.version.toNat ≤ (s.world.ledger.latest t.key (some u)).toNat + lead posts
  shown : ∀ uid, u ≠ uid → ¬ Hidden s.world.stores.versions t uid

variable {s s' : VersionHandlers} {w : World}

theorem Sound.outside (h : Sound t u (before ++ (ρ, p) :: after) s) (hρ : ρ.holds = true) :
    t.key ∈ s.world.locked ∧ ∀ p ∈ before ++ after, p.1.holds = false := by
  have hl := h.lock
  rw [holders_middle, hρ, held] at hl
  split at hl
  · next hk =>
    have : holders (before ++ after) = 0 := by simpa using hl
    exact ⟨hk, fun p hp => by simpa using List.countP_eq_zero.mp this p hp⟩
  · simp at hl

/-- A worker goes to another place. What is said of the world is to be shown again. -/
theorem Sound.go (h : Sound t u (before ++ (ρ, p) :: after) s) (hst : Stage t s.seen ρ' p')
    (hlock : held t.key w + ρ.holds.toNat = held t.key s.world + ρ'.holds.toNat)
    (ht : w.stores.templates = s.world.stores.templates)
    (hr : w.stores.versions.Recorded (w.stores.versions.objects.values ++ s.seen))
    (hinf : ∀ q ∈ before ++ (ρ', p') :: after, ∀ n, q.1 = .informed n →
      n = w.ledger.latest t.key (some u))
    (hapart : ∀ v v', Member w.stores.versions t v → Member w.stores.versions t v' →
      v.status.version = v'.status.version → v = v')
    (hcounted : ∀ v, Member w.stores.versions t v → v.status.version.toNat ≤
      (w.ledger.latest t.key (some u)).toNat + lead (before ++ (ρ', p') :: after))
    (hshown : ∀ uid, u ≠ uid → ¬ Hidden w.stores.versions t uid) :
    Sound t u (before ++ (ρ', p') :: after)
      { s.note w with plans := before.map Prod.snd ++ p' :: after.map Prod.snd } where
  recorded := hr
  template := by simp only [VersionHandlers.note, ht]; exact h.template
  uid := h.uid
  plans := by simp only [List.map_append, List.map_cons]
  stages := by
    have hseen : s.seen ⊆ w.stores.versions.objects.values ++ s.seen := List.subset_append_right _ _
    have hall := h.stages
    rw [List.forall_mem_append, List.forall_mem_cons] at hall ⊢
    exact ⟨fun q hq => (hall.1 q hq).mono hseen, hst.mono hseen, fun q hq =>
      (hall.2.2 q hq).mono hseen⟩
  lock := by
    have := h.lock
    rw [holders_middle] at this ⊢
    simp only [VersionHandlers.note]
    omega
  informed := hinf
  apart := hapart
  counted := hcounted
  shown := hshown

theorem Sound.move (h : Sound t u (before ++ (ρ, p) :: after) s) (hs : w.stores = s.world.stores)
    (hl : w.ledger = s.world.ledger) (hst : Stage t s.seen ρ' p') (hρ : ρ ≠ .ahead)
    (hρ' : ρ' ≠ .ahead) (hn : ∀ n, ρ' = .informed n → n = s.world.ledger.latest t.key (some u))
    (hlock : held t.key w + ρ.holds.toNat = held t.key s.world + ρ'.holds.toNat) :
    Sound t u (before ++ (ρ', p') :: after)
      { s.note w with plans := before.map Prod.snd ++ p' :: after.map Prod.snd } := by
  refine h.go hst hlock (by rw [hs]) (by rw [hs]; exact h.recorded.note) ?_
    (by rw [hs]; exact h.apart) ?_
    (by rw [hs]; exact h.shown)
  · have hinf := h.informed
    rw [List.forall_mem_append, List.forall_mem_cons] at hinf ⊢
    rw [hl]
    exact ⟨hinf.1, hn, hinf.2.2⟩
  · intro v hv
    have := h.counted v (hs ▸ hv)
    rw [lead_middle, if_neg hρ] at this
    rw [lead_middle, if_neg hρ', hl]
    exact this

theorem member_put {r : Version} (h : Member (d.put r) t v) : v = r ∨ Member d t v := by
  have hk := h.stored
  rw [Store.put_get?] at hk
  split at hk
  · exact .inl (Option.some.inj hk).symm
  · exact .inr ⟨hk, h.named, h.owned, h.assigned⟩

theorem Sound.lead_others (h : Sound t u (before ++ (ρ, p) :: after) s) (hρ : ρ.holds = true) :
    lead (before ++ after) = 0 := by
  refine List.countP_eq_zero.mpr fun q hq hq' => ?_
  have := (h.outside hρ).2 q hq
  rw [of_decide_eq_true hq'] at this
  contradiction

theorem Sound.uninformed (h : Sound t u (before ++ (ρ, p) :: after) s) (hρ : ρ.holds = true)
    (hρ' : ∀ n, ρ' ≠ .informed n) (p' : Plan (Verdict Version)) :
    ∀ q ∈ before ++ (ρ', p') :: after, ∀ n, q.1 ≠ .informed n := by
  have hout : ∀ q ∈ before ++ after, ∀ n, q.1 ≠ .informed n := fun q hq n hn => by
    have := (h.outside hρ).2 q hq
    rw [hn] at this
    contradiction
  rw [List.forall_mem_append] at hout
  rw [List.forall_mem_append, List.forall_mem_cons]
  exact ⟨hout.1, hρ', hout.2⟩

theorem Sound.write {m : UInt32} (h : Sound t u (before ++ (.informed n, p) :: after) s)
    (hu : s.world.Unspent) (he : Eligible t s.seen v) (hnext : Counter.next? n = some m)
    (hf : s.world.stores.versions.fenced (v.numbered m now) = .ok c)
    (hs : w.stores = ⟨s.world.stores.templates,
      s.world.stores.versions.put (s.world.stores.versions.restated c (v.numbered m now))⟩)
    (hl : w.ledger = s.world.ledger) (hk : w.locked = s.world.locked)
    (hst : Stage t s.seen .ahead p') :
    Sound t u (before ++ (.ahead, p') :: after)
      { s.note w with plans := before.map Prod.snd ++ p' :: after.map Prod.snd } := by
  obtain rfl := h.recorded.fenced he.seen rfl hf
  have hc := (Store.fenced_eq_ok.mp hf).1
  have hsv := congrArg Stores.versions hs
  have hlead := h.lead_others rfl
  have hread : n = s.world.ledger.latest t.key (some u) :=
    h.informed (.informed n, p) (by simp) n rfl
  have hn : m.toNat = (s.world.ledger.latest t.key (some u)).toNat + 1 :=
    hread ▸ Counter.next?_eq_some.mp hnext
  have old {x : Version} (hx : Member s.world.stores.versions t x) :
      x.status.version.toNat < m.toNat := by
    have := h.counted x hx
    rw [lead_middle, hlead, if_neg (by simp)] at this
    omega
  refine h.go hst (by simp only [held, hk]; rfl) (by rw [hs])
    (by rw [hsv]; exact h.recorded.note_put hu.room rfl)
    ?_ ?_ ?_ ?_
  · exact fun q hq i hi => absurd hi (h.uninformed rfl (fun _ => by simp) p' q hq i)
  · rw [hsv]
    intro x y hx hy e
    have new {z : Version} (hz : Member s.world.stores.versions t z) : z.status.version ≠ m :=
      fun e => absurd (old hz) (e ▸ Nat.lt_irrefl _)
    rcases member_put hx with rfl | hx' <;> rcases member_put hy with rfl | hy'
    · rfl
    · exact absurd e.symm (new hy')
    · exact absurd e (new hx')
    · exact h.apart x y hx' hy' e
  · rw [hsv, hl, lead_middle, hlead, if_pos rfl, ← hn]
    intro x hx
    rcases member_put hx with rfl | hx
    · exact Nat.le_refl _
    · exact Nat.le_of_lt (old hx)
  · rw [hsv]
    exact fun uid hne hh => h.shown uid hne (hh.of_numbered hc he)

theorem Sound.advance (h : Sound t u (before ++ (.ahead, p) :: after) s) (hu : s.world.Unspent)
    (hs : w.stores = s.world.stores) (hl : w.ledger = s.world.ledger.advance t.key (some u))
    (hk : w.locked = s.world.locked) (hst : Stage t s.seen .holding p') :
    Sound t u (before ++ (.holding, p') :: after)
      { s.note w with plans := before.map Prod.snd ++ p' :: after.map Prod.snd } := by
  have hlead := h.lead_others rfl
  refine h.go hst (by simp only [held, hk]; rfl) (by rw [hs]) (by rw [hs]; exact h.recorded.note) ?_
    (by rw [hs]; exact h.apart) ?_ (by rw [hs]; exact h.shown)
  · exact fun q hq m hm => absurd hm (h.uninformed rfl (fun _ => by simp) p' q hq m)
  · intro v hv
    have := h.counted v (hs ▸ hv)
    rw [lead_middle, hlead, if_pos rfl] at this
    rw [lead_middle, hlead, if_neg (by simp), hl, Ledger.latest_advance (hu.ledger.next? _ _),
      hu.latest_toNat]
    exact this

/-- After the end of all workers, the ledger counts what is stored. -/
theorem Sound.crash {posts : List Post} (h : Sound t u posts s) :
    Sound t u [] { s with world := s.world.forget.rebuilt, plans := [] } where
  recorded := h.recorded
  template := h.template
  uid := h.uid
  plans := rfl
  stages _ hp := absurd hp List.not_mem_nil
  lock := rfl
  informed _ hp := absurd hp List.not_mem_nil
  apart := h.apart
  counted _ hv := UInt32.le_iff_toNat_le.mp (rebuilt_covers h.shown hv)
  shown := h.shown

theorem held_lock {k : Key} (h : k ∉ w.locked) :
    held k { w with locked := k :: w.locked } = held k w + 1 := by
  simp [held, h]

theorem held_unlock {k : Key} (h : k ∈ w.locked) :
    held k { w with locked := w.locked.filter (· ≠ k) } + 1 = held k w := by
  simp [held, h]

theorem Sound.request (h : Sound t u (before ++ (ρ, p) :: after) s) (hu : s.world.Unspent)
    {r : Request} {next : r.Answer → Plan (Verdict Version)} (hp : p = .ask r next)
    (hfree : VersionHandlers.Free s.world r) :
    ∃ ρ', Sound t u (before ++ (ρ', next (World.answer r s.world).1) :: after)
      { s.note (World.answer r s.world).2 with
        plans :=
      before.map Prod.snd ++ next (World.answer r s.world).1 :: after.map Prod.snd } := by
  have hstage := h.stages (ρ, p) (by simp)
  subst hp
  cases hstage with
  | looking hnext =>
    rw [← h.template] at hnext
    exact ⟨.outside, h.move rfl rfl hnext (by simp) (by simp) (by simp) rfl⟩
  | waiting hnext =>
    exact ⟨.holding, h.move rfl rfl hnext (by simp) (by simp) (by simp) (held_lock hfree)⟩
  | reading hnext =>
    refine ⟨_, h.move rfl rfl (hnext _) (by simp) (by simp) (fun n hn => ?_) rfl⟩
    rw [← h.uid]
    exact (Role.informed.inj hn).symm
  | @writing v n m now _ he hn herr hok =>
    simp only [World.answer]
    cases hus : s.world.stores.versions.updateStatus (v.numbered m now) with
    | error e => exact ⟨.holding, h.move rfl rfl (herr e) (by simp) (by simp) (by simp) rfl⟩
    | ok r =>
      obtain ⟨stored, d⟩ := r
      obtain ⟨c, hf, -, rfl⟩ := Store.updateStatus_eq_ok.mp hus
      exact ⟨.ahead, h.write hu he hn hf rfl rfl rfl (hok stored)⟩
  | counting hnext =>
    exact ⟨.holding, h.advance hu rfl (by rw [← h.uid]; rfl) rfl (hnext _)⟩
  | abandoning hnext =>
    exact ⟨.outside,
      h.move rfl rfl hnext (by simp) (by simp) (by simp) (held_unlock (h.outside rfl).1)⟩
  | leaving hnext =>
    exact ⟨.outside,
      h.move rfl rfl hnext (by simp) (by simp) (by simp) (held_unlock (h.outside rfl).1)⟩
  | enqueuing hnext => exact ⟨.outside, h.move rfl rfl hnext (by simp) (by simp) (by simp) rfl⟩
  | telling hnext => exact ⟨.outside, h.move rfl rfl hnext (by simp) (by simp) (by simp) rfl⟩

theorem Sound.leave {a : Verdict Version} (h : Sound t u (before ++ (ρ, .done a) :: after) s) :
    Sound t u (before ++ after) { s with plans := before.map Prod.snd ++ after.map Prod.snd } := by
  have hρ : ρ = .outside := by
    have hstage := h.stages (ρ, .done a) (by simp)
    cases hstage
    rfl
  have hmem : ∀ q ∈ before ++ after, q ∈ before ++ (ρ, .done a) :: after := fun q hq => by
    rw [List.mem_append, List.mem_cons]
    exact (List.mem_append.mp hq).imp_right .inr
  have hlock : holders (before ++ after) = held t.key s.world := by
    have := h.lock
    rwa [holders_middle, hρ] at this
  have hcounted : ∀ v, Member s.world.stores.versions t v → v.status.version.toNat ≤
      (s.world.ledger.latest t.key (some u)).toNat + lead (before ++ after) := fun v hv => by
    have := h.counted v hv
    rwa [lead_middle, hρ] at this
  exact ⟨h.recorded, h.template, h.uid, List.map_append, fun q hq => h.stages q (hmem q hq), hlock,
    fun q hq => h.informed q (hmem q hq), h.apart, hcounted, h.shown⟩

theorem Sound.join (h : Sound t u posts s) (hst : Stage t s.seen .outside p) :
    Sound t u ((.outside, p) :: posts) (s.join p) where
  recorded := h.recorded
  template := h.template
  uid := h.uid
  plans := by simp only [List.map_cons, h.plans, VersionHandlers.join]
  stages := List.forall_mem_cons.mpr ⟨hst, h.stages⟩
  lock := (holders_middle [] posts _ _).trans h.lock
  informed := List.forall_mem_cons.mpr ⟨fun _ hn => absurd hn (by simp), h.informed⟩
  apart := h.apart
  counted v hv := by
    have hl : lead ((.outside, p) :: posts) = lead posts := lead_middle [] posts _ _
    rw [hl]
    exact h.counted v hv
  shown := h.shown

theorem Sound.turn (h : Sound t u posts s) (hu : s.world.Unspent) (ht : s.Turn s') :
    ∃ posts', Sound t u posts' s' := by
  cases ht with
  | @request before after r next hp hfree =>
    rw [← h.plans] at hp
    obtain ⟨before, rest, rfl, rfl, hrest⟩ := List.map_eq_append_iff.mp hp
    obtain ⟨⟨ρ, p⟩, after, rfl, hr, rfl⟩ := List.map_eq_cons_iff.mp hrest
    obtain ⟨ρ', h'⟩ := h.request hu hr hfree
    exact ⟨_, h'⟩
  | @leave before after a hp =>
    rw [← h.plans] at hp
    obtain ⟨before, rest, rfl, rfl, hrest⟩ := List.map_eq_append_iff.mp hp
    obtain ⟨⟨ρ, p⟩, after, rfl, hr, rfl⟩ := List.map_eq_cons_iff.mp hrest
    subst hr
    exact ⟨_, h.leave⟩

theorem Sound.step (h : Sound t u posts s) (hs : Step t s s') : ∃ posts', Sound t u posts' s' := by
  cases hs with
  | deliver v now hv hk hl => exact ⟨_, h.join (stage_number hv hk hl now)⟩
  | turn hu ht => exact h.turn hu ht
  | crash => exact ⟨[], h.crash⟩

theorem Sound.run (h : Sound t u posts s) (hr : Run t s s') : ∃ posts', Sound t u posts' s' := by
  induction hr with
  | refl => exact ⟨posts, h⟩
  | tail _ hs ih => obtain ⟨posts', h'⟩ := ih; exact h'.step hs

/-- Numbers are apart, and the ledger has them; under the lock, it may miss the last one. -/
structure Safe (t : Template) (w : World) : Prop where
  apart : ∀ v v', Member w.stores.versions t v → Member w.stores.versions t v' →
    v.status.version = v'.status.version → v = v'
  counted : t.key ∉ w.locked → ∀ v, Member w.stores.versions t v →
    v.status.version ≤ w.ledger.latest t.key t.metadata.uid
  next : ∀ v, Member w.stores.versions t v →
    w.ledger.latest t.key t.metadata.uid < v.status.version →
    v.status.version.toNat = (w.ledger.latest t.key t.metadata.uid).toNat + 1
  single : ∀ v v', Member w.stores.versions t v → Member w.stores.versions t v' →
    w.ledger.latest t.key t.metadata.uid < v.status.version →
    w.ledger.latest t.key t.metadata.uid < v'.status.version → v = v'

/-- A template with nobody at work on it, and the ledger up to date. -/
structure Opening (t : Template) (s : VersionHandlers) : Prop where
  recorded : s.world.stores.versions.Recorded s.seen
  template : s.world.stores.templates.get? t.key = some t
  uid : t.metadata.uid ≠ none
  idle : s.plans = []
  unlocked : t.key ∉ s.world.locked
  unspent : s.world.Unspent
  apart : ∀ v v', Member s.world.stores.versions t v → Member s.world.stores.versions t v' →
    v.status.version = v'.status.version → v = v'
  counted : ∀ v, Member s.world.stores.versions t v →
    1 ≤ v.status.version ∧ v.status.version ≤ s.world.ledger.latest t.key t.metadata.uid

theorem Sound.safe (h : Sound t u posts s) : Safe t s.world := by
  have hlead := lead_le_holders posts
  rw [h.lock] at hlead
  have hnext (v : Version) (hv : Member s.world.stores.versions t v)
      (hlt : s.world.ledger.latest t.key t.metadata.uid < v.status.version) :
      v.status.version.toNat = (s.world.ledger.latest t.key t.metadata.uid).toNat + 1 := by
    rw [h.uid, UInt32.lt_iff_toNat_lt] at *
    have := h.counted v hv
    have : held t.key s.world ≤ 1 := by unfold held; split <;> decide
    omega
  refine ⟨h.apart, fun hk v hv => ?_, hnext, fun v v' hv hv' hlt hlt' => ?_⟩
  · have := h.counted v hv
    rw [held, if_neg hk] at hlead
    rw [h.uid, UInt32.le_iff_toNat_le]
    omega
  · exact h.apart v v' hv hv'
      (UInt32.toNat_inj.mp ((hnext v hv hlt).trans (hnext v' hv' hlt').symm))

theorem Opening.sound (h : Opening t s) (hu : t.metadata.uid = some u)
    (hh : ∀ uid, u ≠ uid → ¬ Hidden s.world.stores.versions t uid) : Sound t u [] s where
  recorded := h.recorded
  template := h.template
  uid := hu
  plans := h.idle.symm
  stages _ hp := absurd hp List.not_mem_nil
  lock := (if_neg h.unlocked).symm
  informed _ hp := absurd hp List.not_mem_nil
  apart := h.apart
  counted v hv := UInt32.le_iff_toNat_le.mp (hu ▸ (h.counted v hv).2)
  shown := hh

theorem Hidden.not_safe (h : Hidden w.stores.versions t uid) (hkeyed : w.stores.versions.Keyed)
    (hu : t.metadata.uid = some u) (hne : u ≠ uid) (hv : Member w.stores.versions t v)
    (hn : 1 ≤ v.status.version) :
    ¬ Safe t w.forget.rebuilt := by
  intro hsafe
  have hzero : (Ledger.empty.rebuild w.stores.versions.all).latest t.key (some u) = 0 := by
    refine Ledger.latest_of_other (fun e he => Ledger.rebuild_owner (fun x hx hk ha => ?_)
      (fun _ h => absurd ((Table.find?_empty _).symm.trans h) (by simp)) he) hne
    obtain ⟨k, hx⟩ := Store.mem_all_iff.mp hx
    exact h.all x (hkeyed.get? hx) hk ha
  have hle :
      v.status.version ≤ (Ledger.empty.rebuild w.stores.versions.all).latest t.key (some u) :=
    hu ▸ hsafe.counted List.not_mem_nil v hv
  rw [hzero] at hle
  exact absurd (UInt32.le_trans hn hle) (by decide)

theorem Hidden.numbered (h : Hidden d t uid) (hk : v.templateKey = t.key)
    (ho : v.ownerUid = some uid) (hl : v.ownedBy t = true) (n : UInt32) (now : Timestamp) :
    Hidden (d.put (d.restated v (v.numbered n now))) t uid ∧
      Member (d.put (d.restated v (v.numbered n now))) t (d.restated v (v.numbered n now)) := by
  have hr : (d.put (d.restated v (v.numbered n now))).get? (d.restated v (v.numbered n now)).key =
      some (d.restated v (v.numbered n now)) := by rw [Store.put_get?, if_pos rfl]
  have ha : (v.numbered n now).assigned = true := Version.numbered_assigned v n now
  refine ⟨⟨fun x hx hxk hxa => ?_, _, hr, hk, ho, .inl ⟨ha, hl⟩⟩, hr, hk, hl, ha⟩
  rw [Store.put_get?] at hx
  split at hx
  · obtain rfl := Option.some.inj hx
    exact ho
  · exact h.all x hx hxk hxa

/-- A worker on its own has its requests answered one after the other. -/
theorem request_alone {w : World} {r : Request} {next : r.Answer → Plan (Verdict Version)}
    (hr : Run t s s') (hw : s'.world = w) (hp : s'.plans = [.ask r next]) (hu : w.Unspent)
    (hfree : VersionHandlers.Free w r) :
    ∃ s'', Run t s s'' ∧ s''.world = (World.answer r w).2 ∧
      s''.plans = [next (World.answer r w).1] := by
  subst hw
  exact ⟨_, hr.tail (.turn hu (@VersionHandlers.Turn.request s' [] [] r next hp hfree)), rfl, rfl⟩

theorem Eligible.number_eq (he : Eligible t past v) (now : Timestamp) :
    ∃ next, v.number now = .ask (.template t.key) next ∧ next (.ok (some t)) = v.assign t now := by
  unfold Version.number
  rw [if_neg (by simp [he.kept, he.unassigned]), ← he.named]
  refine ⟨_, rfl, ?_⟩
  change (if v.linkedTo t then v.assign t now else v.link t now) = v.assign t now
  rw [if_pos he.linked]

theorem Opening.number (h : Opening t s) (hv : s.world.stores.versions.get? v.key = some v)
    (he : Eligible t s.seen v) (now : Timestamp) :
    ∃ s', Run t s s' ∧
      s'.world.stores.versions = s.world.stores.versions.put (s.world.stores.versions.restated v
      (v.numbered (s.world.ledger.latest t.key t.metadata.uid + 1) now)) := by
  obtain ⟨next, hnumber, hnext⟩ := he.number_eq now
  have hstart : Run t s (s.join (v.number now)) :=
    .single (.deliver v now he.seen he.named he.linked)
  obtain ⟨s₁, hr₁, hw₁, hp₁⟩ :=
    request_alone (r := .template t.key) hstart rfl (by rw [VersionHandlers.join, h.idle, hnumber])
    h.unspent trivial
  have hassign : s₁.plans = [v.assign t now] := by
    rw [hp₁, ← hnext, ← h.template]
    rfl
  obtain ⟨s₂, hr₂, hw₂, hp₂⟩ := request_alone hr₁ hw₁ hassign h.unspent h.unlocked
  obtain ⟨s₃, hr₃, hw₃, hp₃⟩ :=
    request_alone hr₂ hw₂ hp₂ ⟨h.unspent.room, h.unspent.numbers⟩ trivial
  have hrecord : s₃.plans = [v.record t (s.world.ledger.latest t.key t.metadata.uid + 1) now] := by
    have hnext : Counter.next? (s.world.ledger.latest t.key t.metadata.uid) = some _ :=
      h.unspent.ledger.next? _ _
    rw [hp₃]
    change [v.recordAfter t (s.world.ledger.latest t.key t.metadata.uid) now] = _
    rw [Version.recordAfter, hnext]
  obtain ⟨s₄, hr₄, hw₄, -⟩ :=
    request_alone hr₃ hw₃ hrecord ⟨h.unspent.room, h.unspent.numbers⟩ trivial
  refine ⟨s₄, hr₄, ?_⟩
  have hf : s.world.stores.versions.fenced
      (v.numbered (s.world.ledger.latest t.key t.metadata.uid + 1) now) = .ok v :=
    Store.fenced_eq_ok.mpr ⟨hv, rfl⟩
  have hok := Store.updateStatus_eq_ok.mpr ⟨v, hf, rfl, rfl⟩
  rw [hw₄]
  simp only [World.answer, VersionHandlers.join, hok]
  rfl

/-- Numbers are safe in all runs, crashes included, exactly when no rebuilt ledger can miss them. -/
theorem safe_iff_not_hidden (h : Opening t s) :
    (∀ s', Run t s s' → Safe t s'.world) ↔
      ∀ uid, t.metadata.uid ≠ some uid → ¬ Hidden s.world.stores.versions t uid := by
  obtain ⟨u, hu⟩ := Option.ne_none_iff_exists'.mp h.uid
  have other {uid : Uid} : t.metadata.uid ≠ some uid ↔ u ≠ uid := by simp [hu]
  constructor
  · intro hsafe uid hne hh
    obtain ⟨v, hv, hk, ho, hor⟩ := hh.any
    -- A hidden version is a member already, or comes to be one.
    by_cases ha : v.assigned = true ∧ v.ownedBy t = true
    · have hm : Member s.world.stores.versions t v := ⟨hv, hk, ha.2, ha.1⟩
      exact hh.not_safe h.recorded.keyed hu (other.mp hne) hm (h.counted v hm).1
        (hsafe _ (.single .crash))
    · have hl := hor.resolve_left ha
      have howned : v.ownedBy t = true := by
        have := hl.1
        rw [Version.linkedTo, Bool.and_eq_true] at this
        exact this.2
      have he : Eligible t s.seen v :=
        ⟨h.recorded.held hv, hk, hl.1, by simpa [howned] using ha, hl.2⟩
      obtain ⟨s', hr, hs⟩ := h.number hv he default
      obtain ⟨hh', hm⟩ :=
        hh.numbered hk ho howned (s.world.ledger.latest t.key t.metadata.uid + 1) default
      rw [← hs] at hh' hm
      refine hh'.not_safe (hs ▸ h.recorded.keyed.put _) hu (other.mp hne) hm ?_
        (hsafe _ (hr.tail .crash))
      change 1 ≤ s.world.ledger.latest t.key t.metadata.uid + 1
      rw [UInt32.le_iff_toNat_le, h.unspent.latest_toNat]
      exact Nat.le_add_left _ _
  · intro hh s' hr
    obtain ⟨posts, hs⟩ := (h.sound hu fun uid hne => hh uid (other.mpr hne)).run hr
    exact hs.safe

def llama : Template := ⟨{ Meta.named "models" "llama" with uid := some ⟨0⟩ }, .empty, .empty⟩

def referring (uids : List Uid) : Version where
  metadata :=
    { Meta.named "models" "a" with
      uid := some ⟨1⟩
      resourceVersion := 1
      labels := Table.empty.insert templateLabel "llama"
      owners := uids.map fun uid => ⟨apiVersion, Kind.template.text, "llama", uid⟩ }
  spec := { VersionSpec.empty with templateName := "llama" }
  status := .empty

def opened (v : Version) : VersionHandlers where
  world :=
    { World.empty with
      stores := ⟨World.empty.stores.templates.put llama, World.empty.stores.versions.put v⟩ }
  plans := []
  seen := [v]

theorem stored_opened {v' : Version} (h : (opened v).world.stores.versions.get? v'.key = some v') :
    v' = v := by
  have hk : ((Store.empty .version : VersionStore).put v).get? v'.key = some v' := h
  rw [Store.put_get?] at hk
  split at hk
  · exact (Option.some.inj hk).symm
  · contradiction

theorem opening_opened (uids : List Uid) : Opening llama (opened (referring uids)) := by
  have none (v : Version) :
      ¬ Member (opened (referring uids)).world.stores.versions llama v := fun h => by
    have hu : (referring uids).assigned = false := rfl
    exact absurd (stored_opened h.stored ▸ h.assigned) (by simp [hu])
  have room : (1 : UInt64).toNat + 1 < UInt64.size := by decide
  exact
    { recorded := (Store.recorded_empty .version).put (by decide) rfl, template := rfl,
      uid := by simp [llama],
      idle := rfl, unlocked := List.not_mem_nil, unspent :=
    ⟨room, fun _ h => absurd h List.not_mem_nil⟩,
      apart := fun v _ hv => absurd hv (none v), counted := fun v hv => absurd hv (none v) }

/-- The first reference of a version leads to another template of the name. After a crash, its
number is free. -/
theorem foreign_reference_unsafe :
    ∃ s, Run llama (opened (referring [⟨9⟩, ⟨0⟩])) s ∧ ¬ Safe llama s.world := by
  have ho := opening_opened [⟨9⟩, ⟨0⟩]
  have he : Eligible llama (opened (referring [⟨9⟩, ⟨0⟩])).seen (referring [⟨9⟩, ⟨0⟩]) :=
    ⟨List.mem_cons_self, rfl, by decide, by decide, rfl⟩
  have hh : Hidden (opened (referring [⟨9⟩, ⟨0⟩])).world.stores.versions llama ⟨9⟩ :=
    ⟨fun v hv _ _ =>
      stored_opened
        hv ▸ by decide, referring [⟨9⟩, ⟨0⟩], rfl, rfl, by decide, .inr ⟨by decide, rfl⟩⟩
  obtain ⟨s, hr, hs⟩ := ho.number rfl he default
  obtain ⟨hh', hm⟩ := hh.numbered (v := referring [⟨9⟩, ⟨0⟩]) rfl (by decide) (by decide) _ default
  rw [← hs] at hh' hm
  exact ⟨_, hr.tail .crash,
    hh'.not_safe (hs ▸ ho.recorded.keyed.put _) rfl (by decide) hm (by decide)⟩

theorem safe_iff_not_hidden_own : Opening llama (opened (referring [⟨0⟩])) ∧
    ∀ s, Run llama (opened (referring [⟨0⟩])) s → Safe llama s.world := by
  refine ⟨opening_opened _, (safe_iff_not_hidden (opening_opened _)).mpr fun uid hne hh => ?_⟩
  obtain ⟨v, hv, -, ho, -⟩ := hh.any
  rw [stored_opened hv] at ho
  exact hne (by rw [← ho]; decide)

end ModelTemplates.Assignment
