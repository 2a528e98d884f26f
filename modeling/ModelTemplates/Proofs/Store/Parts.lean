import Mathlib.Data.List.Induction
import ModelTemplates.Proofs.Store.Fence
/-! Clients and handlers write different parts of an object, and every write takes a whole one. What
is stored has each part from whoever wrote that part last, and its identity from its creation. -/
namespace ModelTemplates.Store

variable {σ τ : Type} {s t : Store σ τ} {op : Operation σ τ} {o c : Object σ τ} {k : Key}

def Operation.update? : Operation σ τ → Option (Object σ τ)
  | .update o => some o
  | _ => none

def Operation.updateStatus? : Operation σ τ → Option (Object σ τ)
  | .updateStatus o => some o
  | _ => none

inductive Operation.Revises : Operation σ τ → Prop where
  | update (o : Object σ τ) : Revises (.update o)
  | updateStatus (o : Object σ τ) : Revises (.updateStatus o)

def turns [DecidableEq σ] (a : σ) : List σ → Nat
  | [] => 0
  | b :: bs => (if b = a then 0 else 1) + turns b bs

theorem turns_append [DecidableEq σ] (a b : σ) (as : List σ) :
    turns a (as ++ [b]) = turns a as + if b = as.getLast?.getD a then 0 else 1 := by
  induction as generalizing a with
  | nil => exact Nat.add_comm _ _
  | cons c as ih =>
    have hlast : (c :: as).getLast?.getD a = as.getLast?.getD c := by
      cases as <;> simp [List.getLast?_cons]
    rw [List.cons_append, turns, turns, ih c, hlast, Nat.add_assoc]

/-- One object from its creation on: how it was asked for, what the store drew for it, and the
writes of it since. -/
structure Life (σ τ : Type) where
  first : Object σ τ
  uid : Uid
  now : Timestamp
  since : List (Operation σ τ)

namespace Life

def updates (l : Life σ τ) : List (Object σ τ) := l.since.filterMap Operation.update?

def statusUpdates (l : Life σ τ) : List (Object σ τ) := l.since.filterMap Operation.updateStatus?

def edition (l : Life σ τ) : Object σ τ := l.updates.getLast?.getD l.first

def statement (l : Life σ τ) : Object σ τ := l.statusUpdates.getLast?.getD l.first

def revisions [DecidableEq σ] (l : Life σ τ) : Nat := turns l.first.spec (l.updates.map Object.spec)

/-- An object that is what is left of its life: each of its parts is as it was written last. -/
structure Leaves [DecidableEq σ] (l : Life σ τ) (o : Object σ τ) : Prop where
  status : o.status = l.statement.status
  spec : o.spec = l.edition.spec
  labels : o.metadata.labels = l.edition.metadata.labels
  owners : o.metadata.owners = l.edition.metadata.owners
  uid : o.metadata.uid = some l.uid
  creation : o.metadata.creationTimestamp = some (l.first.metadata.creationTimestamp.getD l.now)
  generation : o.metadata.generation = Int64.ofNat (1 + l.revisions)

def next (l : Option (Life σ τ)) : Operation σ τ → Option (Life σ τ)
  | .create o uid now => some ⟨o, uid, now, []⟩
  | .delete _ _ => none
  | op => l.map fun l => { l with since := l.since ++ [op] }

theorem spec_edition (l : Life σ τ) :
    l.edition.spec = (l.updates.map Object.spec).getLast?.getD l.first.spec := by
  rw [edition, List.getLast?_map]
  cases l.updates.getLast? <;> rfl

variable [DecidableEq σ] {l : Life σ τ}

/-- The parts of the client change with an update, and nothing else does. -/
theorem Leaves.update (h : l.Leaves c) (s : Store σ τ) (o : Object σ τ) :
    Leaves { l with since := l.since ++ [.update o] } (s.updated c o) := by
  have hupdates : updates { l with since := l.since ++ [.update o] } = l.updates ++ [o] := by
    simp [updates, Operation.update?]
  have hstatements :
      statusUpdates { l with since := l.since ++ [.update o] } = l.statusUpdates := by
    simp [statusUpdates, Operation.updateStatus?]
  have hedition : edition { l with since := l.since ++ [.update o] } = o := by
    simp [edition, hupdates]
  constructor
  · rw [statement, hstatements]
    exact h.status
  · rw [hedition]
    rfl
  · rw [hedition]
    rfl
  · rw [hedition]
    rfl
  · exact h.uid
  · exact h.creation
  · have hspec : c.spec = (l.updates.map Object.spec).getLast?.getD l.first.spec :=
      h.spec.trans l.spec_edition
    rw [revisions, hupdates, List.map_append, List.map_singleton, turns_append, ← hspec]
    change (if o.spec = c.spec then c.metadata.generation else c.metadata.generation + 1) = _
    rw [h.generation]
    split
    · rfl
    · rw [← Nat.add_assoc]
      exact (Int64.ofNat_add (1 + l.revisions) 1).symm

/-- The status changes with a status update, and nothing else does. -/
theorem Leaves.updateStatus (h : l.Leaves c) (s : Store σ τ) (o : Object σ τ) :
    Leaves { l with since := l.since ++ [.updateStatus o] } (s.restated c o) := by
  have hupdates : updates { l with since := l.since ++ [.updateStatus o] } = l.updates := by
    simp [updates, Operation.update?]
  have hedition : edition { l with since := l.since ++ [.updateStatus o] } = l.edition := by
    rw [edition, hupdates, edition]
  constructor
  · simp [statement, statusUpdates, Operation.updateStatus?, restated]
  · exact hedition ▸ h.spec
  · exact hedition ▸ h.labels
  · exact hedition ▸ h.owners
  · exact h.uid
  · exact h.creation
  · rw [revisions, hupdates]
    exact h.generation

theorem leaves_created (s : Store σ τ) (o : Object σ τ) (uid : Uid) (now : Timestamp) :
    Leaves ⟨o, uid, now, []⟩ (s.created o uid now) := by
  constructor <;> rfl

end Life

def life? (writes : List (Operation σ τ)) : Option (Life σ τ) := writes.foldl Life.next none

theorem life?_append (writes : List (Operation σ τ)) (op : Operation σ τ) :
    life? (writes ++ [op]) = Life.next (life? writes) op := by
  rw [life?, List.foldl_append]
  rfl

/-- A life begins with the last creation, and all writes since belong to it. -/
theorem life?_eq_some {writes : List (Operation σ τ)} {l : Life σ τ}
    (hw : ∀ op ∈ writes, op.target ≠ none) (h : life? writes = some l) :
    ∃ before, writes = before ++ .create l.first l.uid l.now :: l.since ∧
      ∀ op ∈ l.since, op.Revises := by
  induction writes using List.reverseRecOn generalizing l with
  | nil => contradiction
  | append_singleton writes op ih =>
    have hbefore : ∀ op ∈ writes, op.target ≠ none :=
      fun op hop => hw op (List.mem_append_left _ hop)
    have hlater {op : Operation σ τ} (hr : op.Revises) (h : (life? writes).map
          (fun l => { l with since := l.since ++ [op] }) = some l) :
        ∃ before, writes ++ [op] = before ++ .create l.first l.uid l.now :: l.since ∧
          ∀ op ∈ l.since, op.Revises := by
      obtain ⟨l, hl, rfl⟩ := Option.map_eq_some_iff.mp h
      obtain ⟨before, rfl, hsince⟩ := ih hbefore hl
      refine ⟨before, by simp, fun q hq => ?_⟩
      rcases List.mem_append.mp hq with hq | hq
      · exact hsince q hq
      · exact List.mem_singleton.mp hq ▸ hr
    have hlast : op ∈ writes ++ [op] := List.mem_append_right _ List.mem_cons_self
    rw [life?_append] at h
    cases op with
    | get k => exact (hw _ hlast rfl).elim
    | list space selector => exact (hw _ hlast rfl).elim
    | create o uid now =>
      obtain rfl : ⟨o, uid, now, []⟩ = l := Option.some.inj h
      exact ⟨writes, rfl, fun _ hop => absurd hop List.not_mem_nil⟩
    | update o => exact hlater (.update o) h
    | updateStatus o => exact hlater (.updateStatus o) h
    | delete => contradiction

variable [DecidableEq σ]

instance (s : Store σ τ) (op : Operation σ τ) (k : Key) : Decidable (s.Writes op k) :=
  inferInstanceAs (Decidable (_ ∧ _))

def writesOf (s : Store σ τ) (k : Key) : List (Operation σ τ) → List (Operation σ τ)
  | [] => []
  | op :: ops => if s.Writes op k then op :: (s.apply op).2.writesOf k ops
      else (s.apply op).2.writesOf k ops

theorem target_of_mem_writesOf {ops : List (Operation σ τ)} (h : op ∈ s.writesOf k ops) :
    op.target = some k := by
  induction ops generalizing s with
  | nil => contradiction
  | cons p ops ih =>
    rw [writesOf] at h
    split at h
    · next hw =>
      rcases List.mem_cons.mp h with rfl | h
      · exact hw.1
      · exact ih h
    · exact ih h

theorem writesOf_append (s : Store σ τ) (k : Key) (ops more : List (Operation σ τ)) :
    s.writesOf k (ops ++ more) = s.writesOf k ops ++ (s.after ops).writesOf k more := by
  induction ops generalizing s with
  | nil => rfl
  | cons op ops ih =>
    simp only [List.cons_append, writesOf, ih, after_cons]
    split <;> rfl

inductive Wrote (s : Store σ τ) (k : Key) : Operation σ τ → Option (Object σ τ) → Prop where
  | created (o : Object σ τ) (uid : Uid) (now : Timestamp) :
      Wrote s k (.create o uid now) (some (s.created o uid now))
  | updated {c : Object σ τ} (o : Object σ τ) (hc : s.get? k = some c) :
      Wrote s k (.update o) (some (s.updated c o))
  | restated {c : Object σ τ} (o : Object σ τ) (hc : s.get? k = some c) :
      Wrote s k (.updateStatus o) (some (s.restated c o))
  | deleted (now : Timestamp) : Wrote s k (.delete k now) none

theorem wrote (h : s.Keyed) (hw : s.Writes op k) : s.Wrote k op ((s.apply op).2.get? k) := by
  obtain ⟨htarget, hok⟩ := hw
  cases op with
  | get => contradiction
  | list => contradiction
  | create o uid now =>
    obtain rfl : o.key = k := Option.some.inj htarget
    simp only [apply] at hok ⊢
    cases hr : s.create o uid now with
    | error e => simp [hr, commit, Except.isOk, Except.toBool] at hok
    | ok r =>
      obtain ⟨p, t⟩ := r
      obtain ⟨-, rfl, rfl⟩ := create_eq_ok.mp hr
      have hstored : (s.put (s.created o uid now)).get? o.key = some (s.created o uid now) :=
        (put_get? _ _ _).trans (if_pos rfl)
      rw [commit, hstored]
      exact .created o uid now
  | update o =>
    obtain rfl : o.key = k := Option.some.inj htarget
    simp only [apply] at hok ⊢
    cases hr : s.update o with
    | error e => simp [hr, commit, Except.isOk, Except.toBool] at hok
    | ok r =>
      obtain ⟨p, t⟩ := r
      obtain ⟨c, hf, rfl, rfl⟩ := update_eq_ok.mp hr
      have hstored : (s.put (s.updated c o)).get? o.key = some (s.updated c o) :=
        (put_get? _ _ _).trans (if_pos rfl)
      rw [commit, hstored]
      exact .updated o (fenced_eq_ok.mp hf).1
  | updateStatus o =>
    obtain rfl : o.key = k := Option.some.inj htarget
    simp only [apply] at hok ⊢
    cases hr : s.updateStatus o with
    | error e => simp [hr, commit, Except.isOk, Except.toBool] at hok
    | ok r =>
      obtain ⟨p, t⟩ := r
      obtain ⟨c, hf, rfl, rfl⟩ := updateStatus_eq_ok.mp hr
      have hc := (fenced_eq_ok.mp hf).1
      have hstored : (s.put (s.restated c o)).get? o.key = some (s.restated c o) :=
        (put_get? _ _ _).trans (if_pos (h _ _ hc).symm)
      rw [commit, hstored]
      exact .restated o hc
  | delete j now =>
    obtain rfl : j = k := Option.some.inj htarget
    simp only [apply] at hok ⊢
    cases hr : s.delete j now with
    | error e => simp [hr, discard, Except.isOk, Except.toBool] at hok
    | ok t =>
      obtain ⟨c, hc, rfl⟩ := (delete_eq_ok h).mp hr
      have hgone : (s.without c now).get? j = none :=
        (without_get? _ _ _ _).trans (if_pos (h _ _ hc).symm)
      rw [discard, hgone]
      exact .deleted now

theorem Wrote.life {l : Option (Life σ τ)} {r : Option (Object σ τ)} (hw : s.Wrote k op r)
    (h : Option.Rel Life.Leaves l (s.get? k)) : Option.Rel Life.Leaves (Life.next l op) r := by
  cases hw with
  | created o uid now => exact .some (Life.leaves_created s o uid now)
  | updated o hc =>
    rw [hc] at h
    cases h with
    | some h => exact .some (h.update s o)
  | restated o hc =>
    rw [hc] at h
    cases h with
    | some h => exact .some (h.updateStatus s o)
  | deleted => exact .none

/-- What is stored under a key is what is left of the life that the writes of the key make. -/
theorem leaves_after (h : s.Keyed) (hempty : s.get? k = none) (ops : List (Operation σ τ)) :
    Option.Rel Life.Leaves (life? (s.writesOf k ops)) ((s.after ops).get? k) := by
  induction ops using List.reverseRecOn with
  | nil =>
    rw [after_nil, hempty]
    exact .none
  | append_singleton ops op ih =>
    have hkeyed := h.after ops
    rw [writesOf_append, after_append, after_cons, after_nil, writesOf, writesOf]
    split
    · next hw =>
      rw [life?_append]
      exact (wrote hkeyed hw).life ih
    · next hw =>
      rw [List.append_nil, apply_get?_of_not_writes hkeyed hw]
      exact ih

/-- What is stored has its spec, labels and owners from the last update since its creation and its
status from the last status update, whatever either of them brought beside that; what no write
brought it has from the creation itself. Its identity is that of the creation, and its generation
counts the updates that changed the spec. -/
theorem parts_from_last_writers {kind : Kind} {capacity : Nat} (hs : make? kind capacity = some s)
    (ops : List (Operation σ τ)) (h : (s.after ops).get? k = some o) :
    ∃ (l : Life σ τ) (before : List (Operation σ τ)),
      s.writesOf k ops = before ++ .create l.first l.uid l.now :: l.since ∧
      (∀ op ∈ l.since, op.Revises) ∧
        l.Leaves o ∧
        (1 + l.revisions < Nat.pow 2 63 → o.metadata.generation.toInt = 1 + l.revisions) := by
  have hopen : s.Chronicle [] := .make? hs
  have hempty : s.get? k = none := by
    cases hk : s.get? k with
    | none => rfl
    | some p => exact absurd (hopen.held hk) List.not_mem_nil
  have hleaves := leaves_after hopen.keyed hempty ops
  rw [h] at hleaves
  cases hl : life? (s.writesOf k ops) with
  | none =>
    rw [hl] at hleaves
    contradiction
  | some l =>
    rw [hl] at hleaves
    cases hleaves with
    | some hleaves =>
      have hwrites : ∀ op ∈ s.writesOf k ops, op.target ≠ none := by
        intro op hop
        rw [target_of_mem_writesOf hop]
        exact Option.some_ne_none k
      obtain ⟨before, hlog, hsince⟩ := life?_eq_some hwrites hl
      refine ⟨l, before, hlog, hsince, hleaves, fun hroom => ?_⟩
      rw [hleaves.generation, Int64.toInt_ofNat_of_lt hroom]
      rfl

def retitled : Template := { stored with spec := ⟨some "title", none⟩ }

/-- A handler writes a status on what was stored then, with a label that it has no part in. -/
def judged : Template :=
  { retitled with
    metadata :=
      { retitled.metadata with resourceVersion := 2, labels := Table.empty.insert "a" "b" }
    spec := .empty
    status := ⟨0, 7, 1, []⟩ }

def alternating : List (Operation TemplateSpec TemplateStatus) :=
  [.create subject ⟨1⟩ default, .update retitled, .updateStatus judged, .update stored]

def alternated : Template := (((empty .template).after alternating).get? subject.key).getD default

theorem parts_from_last_writers_alternating :
    ∃ l : Life TemplateSpec TemplateStatus, l.Leaves alternated ∧ l.edition.spec = retitled.spec ∧
      l.edition.metadata.labels = .empty ∧ l.statement.status = judged.status ∧ l.uid = ⟨1⟩ ∧
      Int64.ofNat (1 + l.revisions) = 2 := by
  have hstored :
      ((empty .template).after alternating).get? subject.key = some alternated := by decide
  have hopened : make? .template defaultWatchCapacity = some (empty .template : TemplateStore) :=
    rfl
  obtain ⟨l, -, -, -, h, -⟩ := parts_from_last_writers hopened alternating hstored
  refine ⟨l, h, ?_, ?_, ?_, ?_, ?_⟩
  · rw [← h.spec]
    decide
  · rw [← h.labels]
    decide
  · rw [← h.status]
    decide
  · have huid : alternated.metadata.uid = some ⟨1⟩ := by decide
    exact Option.some.inj (h.uid.symm.trans huid)
  · rw [← h.generation]
    decide

end ModelTemplates.Store
