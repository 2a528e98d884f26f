import ModelTemplates.Handler.Template
import ModelTemplates.Proofs.Ledger.Count
import ModelTemplates.Proofs.Store.History
import ModelTemplates.Proofs.Version.Linking
import ModelTemplates.World
/-! What a delivery of a version does to the world, and what the cleanup of a template does. -/
namespace ModelTemplates
namespace Version

theorem perform_link (w : World) (v : Version) (t : Template) (now : Timestamp) :
    w.perform (v.link t now) =
      match t.ownerReference with
      | none => (.error (.invalid (Kind.template.text ++ " " ++ t.key.text ++ " has no uid")), w)
      | some owner =>
        match w.stores.versions.update (v.linked t owner) with
        | .error e => (.error (.ofStore e), w)
        | .ok (stored, s) =>
          (.ok (.updated stored),
            { w with
              stores := { w.stores with versions := s }
              bus := w.bus.send (.versionLinked v.key t.key now) }) := by
  unfold World.perform link
  cases t.ownerReference with
  | none => rfl
  | some owner =>
    simp only [Plan.commit, bind, Plan.bind, Plan.request, Plan.run, World.answer]
    cases w.stores.versions.update (v.linked t owner) <;> rfl

theorem perform_record (w : World) (v : Version) (t : Template) (n : UInt32) (now : Timestamp) :
    w.perform (v.record t n now) =
      match w.stores.versions.updateStatus (v.numbered n now) with
      | .error e => (.error (.ofStore e), { w with locked := w.locked.filter (· ≠ t.key) })
      | .ok (stored, s) =>
        (.ok (.updated stored),
          { stores := { w.stores with versions := s }
            ledger := w.ledger.advance t.key t.metadata.uid
            locked := w.locked.filter (· ≠ t.key)
            bus := w.bus.send (.versionAssigned v.key t.key n now)
            enqueued := w.enqueued ++ [t.key] }) := by
  unfold World.perform record
  simp only [bind, Plan.bind, Plan.request, Plan.run, World.answer]
  cases w.stores.versions.updateStatus (v.numbered n now) <;> rfl

theorem perform_assign (w : World) (v : Version) (t : Template) (now : Timestamp) :
    w.perform (v.assign t now) =
      match w.ledger.next? t.key t.metadata.uid with
      | none => (.error .overflow, { w with locked := (t.key :: w.locked).filter (· ≠ t.key) })
      | some n => World.perform { w with locked := t.key :: w.locked } (v.record t n now) := by
  unfold World.perform assign recordAfter Ledger.next?
  simp only [bind, Plan.bind, Plan.request, Plan.run, World.answer]
  cases Counter.next? (w.ledger.latest t.key t.metadata.uid) <;> rfl

theorem perform_number (w : World) (v : Version) (now : Timestamp) :
    w.perform (v.number now) =
      if v.deleting || v.assigned then (.ok .unchanged, w)
      else match w.stores.templates.get? v.templateKey with
        | none => (.error (.notFound .template v.templateKey), w)
        | some t =>
          if v.linkedTo t then w.perform (v.assign t now) else w.perform (v.link t now) := by
  unfold World.perform number
  split
  · rfl
  · simp only [bind, Plan.bind, Plan.request, Plan.run, World.answer]
    cases w.stores.templates.get? v.templateKey with
    | none => rfl
    | some t => simp only; split <;> rfl

/-- All that a delivery can do: leave the stores and the ledger alone, link the version, or give it
the next number of its template. -/
inductive Delivered (w : World) (v : Version) : World → Prop where
  | idle {w' : World} : w'.stores = w.stores → w'.ledger = w.ledger → Delivered w v w'
  | linked {w' : World} {t : Template} {owner : OwnerReference} {c : Version} :
      v.assigned = false → w.stores.templates.get? v.templateKey = some t →
      t.ownerReference = some owner → w.stores.versions.fenced (v.linked t owner) = .ok c →
      w'.stores = ⟨w.stores.templates,
        w.stores.versions.put (w.stores.versions.updated c (v.linked t owner))⟩ →
      w'.ledger = w.ledger → Delivered w v w'
  | numbered {w' : World} {t : Template} {c : Version} {n : UInt32} {now : Timestamp} :
      v.assigned = false → w.stores.templates.get? v.templateKey = some t → v.linkedTo t = true →
      w.ledger.next? t.key t.metadata.uid = some n →
      w.stores.versions.fenced (v.numbered n now) = .ok c →
      w'.stores = ⟨w.stores.templates,
        w.stores.versions.put (w.stores.versions.restated c (v.numbered n now))⟩ →
      w'.ledger = w.ledger.advance t.key t.metadata.uid → Delivered w v w'

theorem number_delivered (w : World) (v : Version) (now : Timestamp) :
    Delivered w v (w.perform (v.number now)).2 := by
  rw [perform_number]
  split
  · exact .idle rfl rfl
  · next hg =>
    have ha : v.assigned = false := by simp_all
    split
    · exact .idle rfl rfl
    · next t ht =>
      split
      · next hl =>
        rw [perform_assign]
        split
        · exact .idle rfl rfl
        · next n hn =>
          rw [perform_record]
          split
          · exact .idle rfl rfl
          · next p s hu =>
            obtain ⟨c, hf, -, rfl⟩ := Store.updateStatus_eq_ok.mp hu
            exact .numbered ha ht hl hn hf rfl rfl
      · rw [perform_link]
        split
        · exact .idle rfl rfl
        · next owner ho =>
          split
          · exact .idle rfl rfl
          · next p s hu =>
            obtain ⟨c, hf, -, rfl⟩ := Store.update_eq_ok.mp hu
            exact .linked ha ht ho hf rfl rfl

end Version

/-- No counter of the world has come to its last value: neither the resource versions of versions
nor a number in the ledger. -/
structure World.Unspent (w : World) : Prop where
  room : w.stores.versions.HasRoom
  numbers : ∀ p ∈ w.ledger.entries.entries, p.2.latest.toNat + 1 < UInt32.size

instance (w : World) : Decidable w.Unspent :=
  decidable_of_iff (w.stores.versions.HasRoom ∧
    ∀ p ∈ w.ledger.entries.entries, p.2.latest.toNat + 1 < UInt32.size)
    ⟨fun h => ⟨h.1, h.2⟩, fun h => ⟨h.room, h.numbers⟩⟩

theorem World.Unspent.ledger {w : World} (h : w.Unspent) : w.ledger.Unspent := h.numbers

theorem World.Unspent.latest_toNat {w : World} (h : w.Unspent) (k : Key) (owner : Option Uid) :
    (w.ledger.latest k owner + 1).toNat = (w.ledger.latest k owner).toNat + 1 :=
  h.ledger.next_toNat k owner

/-- A stored version that names a template, is owned by it and has a number. -/
structure Numbering.Member (d : VersionStore) (t : Template) (v : Version) : Prop where
  stored : d.get? v.key = some v
  named : v.templateKey = t.key
  owned : v.ownedBy t = true
  assigned : v.assigned = true

theorem Template.perform_forgetNumbers (w : World) (k : Key) (t : Template) (now : Timestamp) :
    w.perform (t.forgetNumbers k now) =
      (.ok (), if w.ledger.removes k t.metadata.uid then
          { w with
            ledger := w.ledger.remove k t.metadata.uid
            bus := w.bus.send (.ledgerEntryRemoved k now) }
        else { w with ledger := w.ledger.remove k t.metadata.uid }) := by
  change (if w.ledger.removes k t.metadata.uid then (
      Plan.ask (.publish (.ledgerEntryRemoved k now)) fun _ => Plan.done (Except.ok ()))
    else Plan.done (Except.ok ())).run World.answer
      { w with ledger := w.ledger.remove k t.metadata.uid } = _
  by_cases h : w.ledger.removes k t.metadata.uid = true
  · rw [if_pos h, if_pos h]; rfl
  · rw [if_neg h, if_neg h]; rfl

end ModelTemplates
