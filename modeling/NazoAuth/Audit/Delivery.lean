import NazoAuth.Audit.Steps

/-!
# The security audit ledger — every stored event is delivered once and in order

`exported log` are the deliveries of all acknowledged batches in their order, `insertions log` the
events that the writers stored. The invariant `LedgerInv` ties them to the tables: the exported
deliveries followed by those of the batch in flight are one hash chain from the genesis hash on; the
anchor and the head of the chain are where the two parts end; and an identifier was stored as often
as it was exported, and once more if it is pending.
-/

namespace NazoAuth.Audit

open Lib

variable {c : Encodings} {s s' : Ledger} {log : Log}

/-! ## Reading a history -/

/-- The acknowledged deliveries, in the order of their batches. -/
def exported : Log → List SecurityAuditPendingDelivery
  | [] => []
  | e :: log => exported log ++ (acknowledgedBy e).getD []

def insertions (log : Log) : List SecurityAuditEvent := log.flatMap insertedBy

def openClaims : Log → List SecurityAuditBatch
  | [] => []
  | e :: log => if (acknowledgedBy e).isSome then [] else (claimedBy e).toList ++ openClaims log

def pendingCount (s : Ledger) (id : Uuid) : Nat := if (s.unexported id).isSome then 1 else 0

def entryOf (d : SecurityAuditPendingDelivery) : ChainEntry := ⟨d.eventId, d.sequence, d.previousHash, d.eventHash⟩

def deliveryHash (c : Encodings) (d : SecurityAuditPendingDelivery) : Digest :=
  securityAuditEventHash c d.sequence d.previousHash d.eventId d.eventType d.eventCategory d.occurredAt
    d.payloadCanonical

/-- The delivery carries the event. -/
structure Carries (c : Encodings) (d : SecurityAuditPendingDelivery) (event : SecurityAuditEvent) : Prop where
  eventId : d.eventId = event.eventId
  eventType : d.eventType = event.eventType
  eventCategory : d.eventCategory = event.eventCategory
  payload : d.payloadCanonical = c.payloadText event.payload
  occurredAt : d.occurredAt = event.occurredAt

theorem carries_delivery (e : ChainEntry) (r : EventRow) : Carries c (delivery c e r) r.event :=
  ⟨rfl, rfl, rfl, rfl, rfl⟩

/-- The deliveries are one chain from the genesis on. -/
abbrev OneChain (ds : List SecurityAuditPendingDelivery) : Prop :=
  Chained (·.sequence) (·.previousHash) (·.eventHash) 1 genesisHash ds

abbrev chainTip (h : Digest) (ds : List SecurityAuditPendingDelivery) : Digest := tip (·.eventHash) h ds

/-! ## Joined entries -/

variable {r : EventRow}

theorem unexported_eq_some {id : Uuid} :
    s.unexported id = some r ↔ r ∈ s.events.rows ∧ r.key = id ∧ r.pending = true := by
  rw [Ledger.unexported, Option.filter_eq_some_iff, Table.find?_eq_some, and_assoc]

def Joined (s : Ledger) (entries : List ChainEntry) : Prop := ∀ e ∈ entries, ∃ r, s.unexported e.eventId = some r

variable {entries : List ChainEntry} {h : Digest} {n : Nat} {taken : List EventRow}

theorem joinEvents_cons {e : ChainEntry} (hr : s.unexported e.eventId = some r) :
    joinEvents s (e :: entries) = (e, r) :: joinEvents s entries := by
  simp [joinEvents, hr]

theorem entries_of_deliveries (hj : Joined s entries) : (s.deliveries c entries).map entryOf = entries := by
  induction entries with
  | nil => rfl
  | cons e entries ih =>
    obtain ⟨r, hr⟩ := hj e (.head _)
    have hkey : r.key = e.eventId := (unexported_eq_some.mp hr).2.1
    have hhead : entryOf (delivery c e r) = e := by
      cases e
      simp only [entryOf, delivery, SecurityAuditBatchMemberRow.delivery, ChainEntry.mk.injEq, and_true]
      exact hkey
    have htail := ih fun e' he' => hj e' (.tail _ he')
    rw [Ledger.deliveries, joinEvents_cons hr, List.map_cons, List.map_cons, hhead]
    exact congrArg (e :: ·) htail

theorem length_deliveries (hj : Joined s entries) : (s.deliveries c entries).length = entries.length := by
  rw [← List.length_map entryOf, entries_of_deliveries hj]

theorem ids_of_deliveries (hj : Joined s entries) :
    (s.deliveries c entries).map (·.eventId) = entries.map (·.eventId) := by
  conv_rhs => rw [← entries_of_deliveries (c := c) hj, List.map_map]
  rfl

theorem joinEvents_congr (h : ∀ e ∈ entries, s'.unexported e.eventId = s.unexported e.eventId) :
    joinEvents s' entries = joinEvents s entries := by
  exact List.filterMap_congr fun e he => by rw [h e he]

theorem deliveries_congr (h : ∀ e ∈ entries, s'.unexported e.eventId = s.unexported e.eventId) :
    s'.deliveries c entries = s.deliveries c entries := by
  rw [Ledger.deliveries, joinEvents_congr h, Ledger.deliveries]

theorem memberIds_eq (hj : Joined s entries) :
    (joinEvents s entries).map (fun m => m.2.key) = entries.map (·.eventId) := by
  induction entries with
  | nil => rfl
  | cons e entries ih =>
    obtain ⟨r, hr⟩ := hj e (.head _)
    rw [joinEvents_cons hr, List.map_cons, List.map_cons, ih fun e' he' => hj e' (.tail _ he')]
    rw [(unexported_eq_some.mp hr).2.1]

/-! ### Placed events -/

theorem joinEvents_place (hp : ∀ r ∈ taken, r ∈ s.events.rows ∧ r.pending = true) :
    joinEvents s ((place c n h taken).map Prod.fst) = place c n h taken := by
  induction taken generalizing n h with
  | nil => rfl
  | cons r taken ih =>
    obtain ⟨hmem, hpend⟩ := hp r (.head _)
    have hr : s.unexported (nextEntry c n h r).eventId = some r := unexported_eq_some.mpr ⟨hmem, rfl, hpend⟩
    rw [place, List.map_cons, joinEvents_cons hr, ih fun r' hr' => hp r' (.tail _ hr')]

theorem chained_place (c : Encodings) (n : Nat) (h : Digest) (taken : List EventRow) :
    Chained (·.sequence) (·.previousHash) (·.eventHash) (n + 1) h (sent c (place c n h taken))
      ∧ chainTip h (sent c (place c n h taken)) = placeTip c n h taken := by
  induction taken generalizing n h with
  | nil => exact ⟨trivial, rfl⟩
  | cons r taken ih =>
    obtain ⟨hchain, htip⟩ := ih (n + 1) (rowHash c (n + 1) h r)
    exact ⟨⟨rfl, rfl, hchain⟩, htip⟩

theorem hash_of_place : ∀ d ∈ sent c (place c n h taken), d.eventHash = deliveryHash c d := by
  induction taken generalizing n h with
  | nil => simp [sent, place]
  | cons r taken ih =>
    intro d hd
    rcases List.mem_cons.mp hd with rfl | hd
    · rfl
    · exact ih d hd

theorem ids_of_place : ((place c n h taken).map Prod.fst).map (·.eventId) = taken.map EventRow.key := by
  induction taken generalizing n h with
  | nil => rfl
  | cons r taken ih =>
    simp only [place, List.map_cons, ih]
    rfl

/-! ## The invariant -/

/-- A claim that showed the batch in flight. -/
structure Shows (b : SecurityAuditBatch) (b₀ : OpenBatch) (ds : List SecurityAuditPendingDelivery) : Prop where
  first : b.firstSequence = b₀.firstSequence
  last : b.lastSequence = b₀.lastSequence
  digest : b₀.digest = some b.digest
  delivers : Delivers b ds

/-- The chain in flight behind the exported deliveries `X`. -/
structure ChainInv (c : Encodings) (X : List SecurityAuditPendingDelivery) (s : Ledger) : Prop where
  joined : Joined s s.chain
  ids : (s.chain.map (·.eventId)).Nodup
  chained : OneChain (X ++ s.deliveries c s.chain)
  hashes : ∀ d ∈ X ++ s.deliveries c s.chain, d.eventHash = deliveryHash c d
  anchor : s.anchor = X.length
  head : s.state.lastSequence = X.length + s.chain.length
  headHash : s.state.lastHash = chainTip genesisHash (X ++ s.deliveries c s.chain)
  idle : s.state.batch = none → s.chain = []
  inflight : ∀ b₀, s.state.batch = some b₀ → b₀.lastSequence = s.state.lastSequence ∧ ∃ d, b₀.digest = some d

/-- What the tables know of the history. -/
structure LedgerInv (c : Encodings) (log : Log) (s : Ledger) : Prop where
  chain : ChainInv c (exported log) s
  shown : ∀ b ∈ openClaims log, ∃ b₀, s.state.batch = some b₀ ∧ Shows b b₀ (s.deliveries c s.chain)
  generation : ∀ e ∈ log, ∀ b, claimedBy e = some b → b.generation ≤ s.state.batchGeneration
  conserved : ∀ id, (insertions log).countP (fun event => event.eventId = id)
    = (exported log).countP (fun d => d.eventId = id) + pendingCount s id
  origin : ∀ r ∈ s.events.rows, r.pending = true → r.event ∈ insertions log
  carried : ∀ d ∈ exported log, ∃ event ∈ insertions log, Carries c d event

theorem ledgerInv_initial : LedgerInv c [] Ledger.initial where
  chain :=
    { joined := fun e he => absurd he List.not_mem_nil
      ids := List.nodup_nil
      chained := trivial
      hashes := fun d hd => absurd hd List.not_mem_nil
      anchor := rfl
      head := rfl
      headHash := rfl
      idle := fun _ => rfl
      inflight := fun b₀ hb => by cases hb }
  shown := fun b hb => absurd hb List.not_mem_nil
  generation := by simp
  conserved := fun _ => rfl
  origin := fun r hr => absurd hr List.not_mem_nil
  carried := fun d hd => absurd hd List.not_mem_nil

section Chain

variable {X : List SecurityAuditPendingDelivery}

/-- The entries in flight are numbered behind the anchor and up to the head. -/
theorem ChainInv.sequence_mem (hi : ChainInv c X s) {e : ChainEntry} (he : e ∈ s.chain) :
    s.anchor < e.sequence ∧ e.sequence ≤ s.state.lastSequence := by
  obtain ⟨-, hchain⟩ := chained_append.mp hi.chained
  rw [← entries_of_deliveries hi.joined] at he
  obtain ⟨d, hd, rfl⟩ := List.mem_map.mp he
  obtain ⟨hlow, hhigh⟩ := hchain.number_mem hd
  rw [length_deliveries hi.joined] at hhigh
  rw [hi.anchor, hi.head]
  simp only [entryOf]
  constructor
  · omega
  · omega

theorem ChainInv.range_eq (hi : ChainInv c X s) {last : Nat} (hl : last = s.state.lastSequence) :
    s.range last = s.chain := by
  refine List.filter_eq_self.mpr fun e he => ?_
  obtain ⟨h1, h2⟩ := hi.sequence_mem he
  simp [h1, hl, h2]

/-- The chain in flight and its head are as before; only the digest column of the batch may have
been set. -/
structure Framed (s s' : Ledger) : Prop where
  chain : s'.chain = s.chain
  unexported : ∀ e ∈ s.chain, s'.unexported e.eventId = s.unexported e.eventId
  anchor : s'.anchor = s.anchor
  lastSequence : s'.state.lastSequence = s.state.lastSequence
  lastHash : s'.state.lastHash = s.state.lastHash
  batch : s'.state.batch = s.state.batch
    ∨ ∃ b₀ d, s.state.batch = some b₀ ∧ s'.state.batch = some { b₀ with digest := some d }

theorem Framed.deliveries (h : Framed s s') : s'.deliveries c s'.chain = s.deliveries c s.chain := by
  rw [h.chain]
  exact deliveries_congr h.unexported

theorem ChainInv.frame (hi : ChainInv c X s) (h : Framed s s') : ChainInv c X s' := by
  refine ⟨?_, ?_, ?_, ?_, ?_, ?_, ?_, ?_, ?_⟩
  · intro e he
    rw [h.chain] at he
    rw [h.unexported e he]
    exact hi.joined e he
  · rw [h.chain]
    exact hi.ids
  · rw [h.deliveries]
    exact hi.chained
  · rw [h.deliveries]
    exact hi.hashes
  · rw [h.anchor]
    exact hi.anchor
  · rw [h.lastSequence, h.chain]
    exact hi.head
  · rw [h.lastHash, h.deliveries]
    exact hi.headHash
  · intro hb
    rw [h.chain]
    rcases h.batch with hsame | ⟨b₀, d, -, hset⟩
    · exact hi.idle (hsame ▸ hb)
    · rw [hset] at hb
      cases hb
  · intro b hb
    rw [h.lastSequence]
    rcases h.batch with hsame | ⟨b₀, d, hold, hset⟩
    · exact hi.inflight b (hsame ▸ hb)
    · rw [hset] at hb
      cases hb
      exact ⟨(hi.inflight b₀ hold).1, d, rfl⟩

theorem unexported_of_kept {id : Uuid} {r : EventRow} (hr : s.unexported id = some r)
    (hkept : r ∈ s'.events.rows) : s'.unexported id = s.unexported id := by
  obtain ⟨-, hkey, hpending⟩ := unexported_eq_some.mp hr
  rw [hr]
  exact unexported_eq_some.mpr ⟨hkept, hkey, hpending⟩

theorem ChainInv.framed_of_held (hi : ChainInv c X s) (h : Held s s') : Framed s s' := by
  refine ⟨h.chain, fun e _ => ?_, ?_, h.lastSequence, h.lastHash, .inl h.batch⟩
  · rw [Ledger.unexported, h.events, Ledger.unexported]
  -- a genesis found the chain empty
  rcases h.anchor with ha | ⟨hzero, ha⟩
  · exact ha
  · have hhead := hi.head
    rw [hi.anchor]
    omega

theorem ChainInv.framed_of_grown (hi : ChainInv c X s) {news : List EventRow}
    (h : Grown s s' news) : Framed s s' := by
  refine ⟨h.chain, fun e he => ?_, ?_, by rw [h.state], by rw [h.state], .inl (by rw [h.state])⟩
  · obtain ⟨r, hr⟩ := hi.joined e he
    refine unexported_of_kept hr ?_
    rw [h.rows]
    exact List.mem_append_right _ (unexported_eq_some.mp hr).1
  · rw [Ledger.anchor, h.state, Ledger.anchor]

theorem ChainInv.framed_of_cleaned (hi : ChainInv c X s) {gone : EventRow → Bool}
    (hgone : ∀ r ∈ s.events.rows, gone r = true → r.pending = false) :
    Framed s { s with events := s.events.delete gone } := by
  refine ⟨rfl, fun e he => ?_, rfl, rfl, rfl, .inl rfl⟩
  obtain ⟨r, hr⟩ := hi.joined e he
  obtain ⟨hmem, -, hpending⟩ := unexported_eq_some.mp hr
  refine unexported_of_kept hr (Table.mem_delete.mpr ⟨hmem, ?_⟩)
  cases hg : gone r with
  | false => rfl
  | true => simp [hgone r hmem hg] at hpending

theorem framed_of_reclaimed {b : SecurityAuditBatch} {b₀ : OpenBatch} (h : Reclaimed c s s' b b₀) :
    Framed s s' := by
  refine ⟨h.chain, fun e _ => ?_, h.anchor, h.lastSequence, h.lastHash, .inr ⟨b₀, _, h.inflight, h.batch⟩⟩
  rw [Ledger.unexported, h.events, Ledger.unexported]

theorem ChainInv.opened (hi : ChainInv c X s) {b : SecurityAuditBatch} {taken : List EventRow}
    (h : Opened c s s' b taken) :
    ChainInv c X s' ∧ s'.deliveries c s'.chain = sent c (place c s.state.lastSequence s.state.lastHash taken) := by
  have hchain : s.chain = [] := hi.idle h.idle
  have hjoin : joinEvents s' s'.chain = place c s.state.lastSequence s.state.lastHash taken := by
    rw [h.chain]
    exact joinEvents_place fun r hr => by rw [h.events]; exact h.pending r hr
  have hdel : s'.deliveries c s'.chain = sent c (place c s.state.lastSequence s.state.lastHash taken) := by
    rw [Ledger.deliveries, hjoin, sent]
  have hold : s.deliveries c s.chain = [] := by rw [hchain]; rfl
  have hX : OneChain X := by
    have hc := hi.chained
    rwa [hold, List.append_nil] at hc
  have hlast : s.state.lastSequence = X.length := by rw [hi.head, hchain]; rfl
  have hlastHash : s.state.lastHash = chainTip genesisHash X := by rw [hi.headHash, hold, List.append_nil]
  obtain ⟨hplaced, htip⟩ := chained_place c s.state.lastSequence s.state.lastHash taken
  refine ⟨⟨?_, ?_, ?_, ?_, ?_, ?_, ?_, ?_, ?_⟩, hdel⟩
  · intro e he
    rw [h.chain] at he
    obtain ⟨⟨e', r⟩, hmem, rfl⟩ := List.mem_map.mp he
    rw [← hjoin, joinEvents] at hmem
    obtain ⟨e₁, -, hsome⟩ := List.mem_filterMap.mp hmem
    obtain ⟨r', hr', heq⟩ := Option.map_eq_some_iff.mp hsome
    obtain ⟨rfl, rfl⟩ := Prod.mk.inj heq
    exact ⟨r', hr'⟩
  · rw [h.chain, ids_of_place]
    exact h.nodup
  · rw [hdel]
    refine chained_append.mpr ⟨hX, ?_⟩
    rw [Nat.add_comm, ← hlast]
    rw [hlastHash] at hplaced ⊢
    exact hplaced
  · intro d hd
    rw [hdel] at hd
    rcases List.mem_append.mp hd with hd | hd
    · exact hi.hashes d (List.mem_append_left _ hd)
    · exact hash_of_place d hd
  · rw [h.anchor]
    exact hi.anchor
  · rw [h.lastSequence, hlast, h.chain, List.length_map, length_place]
  · rw [h.lastHash, hdel, chainTip, tip_append, ← htip, hlastHash]
  · intro hb
    rw [h.batch] at hb
    cases hb
  · intro b₀ hb
    rw [h.batch] at hb
    obtain rfl := Option.some.inj hb
    refine ⟨?_, _, rfl⟩
    have hcount := h.count
    have hfirst := h.first
    have hanchor := hi.anchor
    rw [h.lastSequence]
    simp only
    omega

/-- After an acknowledgement its members are no longer unexported, and nothing else changed. -/
theorem unexported_deliver (ids : List Uuid) (ack : SecurityAuditBatchAck) (t now : Instant) (id : Uuid) :
    (s.deliver ids ack t now).unexported id = if id ∈ ids then none else s.unexported id := by
  simp only [Ledger.unexported, Ledger.deliver, Table.find?_delete, Table.find?_update]
  cases hf : s.events.find? id with
  | none => simp
  | some r =>
    obtain rfl : r.key = id := Table.find?_key hf
    by_cases hid : r.key ∈ ids
    · by_cases hty : r.event.eventType = decisionEventType
      · cases hx : r.exportedAt with
        | none => simp [Ledger.retains, Ledger.reclaims, hid, hty, hx, EventRow.release, EventRow.pending]
        | some => simp [Ledger.retains, Ledger.reclaims, hid, hty, hx, EventRow.pending, Option.filter]
      · simp [Ledger.retains, Ledger.reclaims, hid, hty]
    · simp [Ledger.retains, Ledger.reclaims, hid, Option.filter]

/-- An acknowledgement empties the chain and appends its deliveries to the exported ones. -/
theorem ChainInv.acknowledged (hi : ChainInv c X s) {ack : SecurityAuditBatchAck} {now : Instant}
    {b₀ : OpenBatch} (h : Acknowledged s s' ack now b₀) :
    ChainInv c (X ++ s.deliveries c s.chain) s' ∧ s.range ack.lastSequence = s.chain := by
  have hlast : ack.lastSequence = s.state.lastSequence := by rw [← h.last, (hi.inflight b₀ h.inflight).1]
  have hrange := hi.range_eq hlast
  obtain ⟨t, rfl⟩ := h.result
  have hempty : (s.deliver (memberIds s ack.lastSequence) ack t now).chain = [] := by
    refine List.filter_eq_nil_iff.mpr fun e he => ?_
    obtain ⟨h1, h2⟩ := hi.sequence_mem he
    simp [h1, hlast, h2]
  have hdel : (s.deliver (memberIds s ack.lastSequence) ack t now).deliveries c
      (s.deliver (memberIds s ack.lastSequence) ack t now).chain = [] := by rw [hempty]; rfl
  refine ⟨⟨?_, ?_, ?_, ?_, ?_, ?_, ?_, fun _ => hempty, fun b hb => by cases hb⟩, hrange⟩
  · rw [hempty]
    exact fun e he => absurd he List.not_mem_nil
  · rw [hempty]
    exact List.nodup_nil
  · rw [hdel, List.append_nil]
    exact hi.chained
  · rw [hdel, List.append_nil]
    exact hi.hashes
  · rw [List.length_append, length_deliveries hi.joined, ← hi.head, ← hlast]
    rfl
  · rw [hempty, List.length_append, length_deliveries hi.joined, ← hi.head]
    rfl
  · rw [hdel, List.append_nil]
    exact hi.headHash

end Chain

/-! ## Preservation -/

variable {e : Op × Outcome}

theorem exported_of_none (h : acknowledgedBy e = none) : exported (e :: log) = exported log := by
  simp [exported, h]

theorem insertions_of_nil (h : insertedBy e = []) : insertions (e :: log) = insertions log := by
  simp [insertions, h]

theorem openClaims_of_quiet (h : acknowledgedBy e = none) (h' : claimedBy e = none) :
    openClaims (e :: log) = openClaims log := by
  simp [openClaims, h, h']

theorem generation_step {g g' : Nat} (h : ∀ e ∈ log, ∀ b, claimedBy e = some b → b.generation ≤ g)
    (hg : g ≤ g') (he : ∀ b, claimedBy e = some b → b.generation ≤ g') :
    ∀ e' ∈ e :: log, ∀ b, claimedBy e' = some b → b.generation ≤ g' := by
  intro e' he' b hb
  rcases List.mem_cons.mp he' with rfl | he'
  · exact he b hb
  · exact Nat.le_trans (h e' he' b hb) hg

variable {op : Op} {out : Outcome}

/-- A transaction that claims, acknowledges and stores nothing and keeps the pending rows. -/
theorem LedgerInv.quiet_step (hi : LedgerInv c log s) (hf : Framed s s') (hbatch : s'.state.batch = s.state.batch)
    (hgen : s'.state.batchGeneration = s.state.batchGeneration)
    (hpending : ∀ id, s'.unexported id = s.unexported id) (hq : Quiet (op, out)) :
    LedgerInv c ((op, out) :: log) s' := by
  refine ⟨?_, ?_, ?_, ?_, ?_, ?_⟩
  · rw [exported_of_none hq.acknowledged]
    exact hi.chain.frame hf
  · rw [openClaims_of_quiet hq.acknowledged hq.claimed, hbatch, hf.deliveries]
    exact hi.shown
  · rw [hgen]
    exact generation_step hi.generation (Nat.le_refl _) fun b hb => by simp [hq.claimed] at hb
  · intro id
    rw [insertions_of_nil hq.inserted, exported_of_none hq.acknowledged, pendingCount, hpending]
    exact hi.conserved id
  · intro r hr hp
    rw [insertions_of_nil hq.inserted]
    have hun := unexported_eq_some.mpr ⟨hr, rfl, hp⟩
    rw [hpending] at hun
    exact hi.origin r (unexported_eq_some.mp hun).1 hp
  · rw [insertions_of_nil hq.inserted, exported_of_none hq.acknowledged]
    exact hi.carried

theorem unexported_delete {gone : EventRow → Bool} (hgone : ∀ r ∈ s.events.rows, gone r = true → r.pending = false)
    (id : Uuid) : Ledger.unexported { s with events := s.events.delete gone } id = s.unexported id := by
  simp only [Ledger.unexported, Table.find?_delete]
  cases hf : s.events.find? id with
  | none => rfl
  | some r =>
    cases hg : gone r with
    | false => simp [hg, Option.filter]
    | true =>
      have hp := hgone r (Table.mem_of_find? hf) hg
      simp [hg, hp, Option.filter]

theorem unexported_grown {news : List EventRow} (h : Grown s s' news) (id : Uuid) :
    pendingCount s' id = pendingCount s id + news.countP (fun r => r.key = id) := by
  have hnodup := s'.events.nodup
  rw [h.rows, List.map_append] at hnodup
  by_cases hnew : ∃ r ∈ news, r.key = id
  · -- the row is new, so no old row has its identifier, and no other new one either
    obtain ⟨r, hr, rfl⟩ := hnew
    have hold : s.unexported r.key = none := by
      rw [Ledger.unexported, Option.filter_eq_none_iff]
      intro r' hr'
      obtain ⟨hmem, hkey⟩ := Table.find?_eq_some.mp hr'
      exact absurd hkey (Ne.symm ((List.nodup_append.mp hnodup).2.2 _ (List.mem_map_of_mem hr) _
        (List.mem_map_of_mem hmem)))
    have hnow : s'.unexported r.key = some r :=
      unexported_eq_some.mpr ⟨by rw [h.rows]; exact List.mem_append_left _ hr, rfl, h.pending r hr⟩
    have hone : news.countP (fun r' => r'.key = r.key) = 1 := by
      have hcount := List.count_eq_one_of_mem (List.nodup_append.mp hnodup).1 (List.mem_map_of_mem hr)
      rw [List.count, List.countP_map] at hcount
      rw [← hcount]
      exact List.countP_congr fun r' _ => by simp
    simp [pendingCount, hold, hnow, hone]
  · have hzero : news.countP (fun r => r.key = id) = 0 := by
      refine List.countP_eq_zero.mpr fun r hr => ?_
      simpa using fun hk => hnew ⟨r, hr, hk⟩
    have hsame : s'.unexported id = s.unexported id := by
      cases hs : s.unexported id with
      | some =>
        rw [← hs]
        refine unexported_of_kept hs ?_
        rw [h.rows]
        exact List.mem_append_right _ (unexported_eq_some.mp hs).1
      | none =>
        cases hs' : s'.unexported id with
        | none => rfl
        | some r =>
          obtain ⟨hmem, hkey, hp⟩ := unexported_eq_some.mp hs'
          rw [h.rows] at hmem
          rcases List.mem_append.mp hmem with hmem | hmem
          · exact absurd ⟨r, hmem, hkey⟩ hnew
          · rw [unexported_eq_some.mpr ⟨hmem, hkey, hp⟩] at hs
            cases hs
    rw [hzero, pendingCount, hsame, pendingCount, Nat.add_zero]

theorem LedgerInv.grown_step (hi : LedgerInv c log s) {news : List EventRow} (h : Grown s s' news)
    (hins : insertedBy (op, out) = (news.map (·.event)).reverse) (hcl : claimedBy (op, out) = none)
    (hack : acknowledgedBy (op, out) = none) : LedgerInv c ((op, out) :: log) s' := by
  have hf := hi.chain.framed_of_grown h
  have hinsert : insertions ((op, out) :: log) = (news.map (·.event)).reverse ++ insertions log := by
    rw [insertions, List.flatMap_cons, hins, insertions]
  refine ⟨?_, ?_, ?_, ?_, ?_, ?_⟩
  · rw [exported_of_none hack]
    exact hi.chain.frame hf
  · rw [openClaims_of_quiet hack hcl, hf.deliveries, h.state]
    exact hi.shown
  · rw [h.state]
    exact generation_step hi.generation (Nat.le_refl _) fun b hb => by simp [hcl] at hb
  · intro id
    have hcons := hi.conserved id
    have hnews : ((news.map (·.event)).reverse).countP (fun event => event.eventId = id)
        = news.countP (fun r => r.key = id) := by
      rw [List.countP_reverse, List.countP_map]
      rfl
    rw [hinsert, List.countP_append, exported_of_none hack, unexported_grown h id]
    omega
  · intro r hr hp
    rw [hinsert]
    rw [h.rows] at hr
    rcases List.mem_append.mp hr with hr | hr
    · exact List.mem_append_left _ (List.mem_reverse.mpr (List.mem_map_of_mem hr))
    · exact List.mem_append_right _ (hi.origin r hr hp)
  · rw [exported_of_none hack]
    intro d hd
    obtain ⟨event, hmem, hcarries⟩ := hi.carried d hd
    exact ⟨event, List.mem_append_right _ hmem, hcarries⟩

variable {b : SecurityAuditBatch} {b₀ : OpenBatch}

/-- A claim leaves the events alone: what remains to show is what it did to the chain and what it
showed. -/
theorem LedgerInv.claim_step (hi : LedgerInv c log s) (hchain : ChainInv c (exported log) s')
    (hshown : ∀ b' ∈ b :: openClaims log, ∃ b₀, s'.state.batch = some b₀ ∧ Shows b' b₀ (s'.deliveries c s'.chain))
    (hevents : s'.events = s.events) (hgen : s'.state.batchGeneration = s.state.batchGeneration + 1)
    (hb : b.generation = s.state.batchGeneration + 1) : LedgerInv c ((op, .claim (.claimed b)) :: log) s' := by
  have hins : insertedBy (op, .claim (.claimed b)) = [] := insertedBy_claim
  refine ⟨?_, ?_, ?_, ?_, ?_, ?_⟩
  · rw [exported_of_none rfl]
    exact hchain
  · exact hshown
  · rw [hgen]
    refine generation_step hi.generation (Nat.le_succ _) fun b' hb' => ?_
    obtain rfl : b = b' := Option.some.inj hb'
    rw [hb]
  · intro id
    rw [insertions_of_nil hins, exported_of_none rfl, pendingCount, Ledger.unexported, hevents]
    exact hi.conserved id
  · rw [insertions_of_nil hins, hevents]
    exact hi.origin
  · rw [insertions_of_nil hins, exported_of_none rfl]
    exact hi.carried

theorem LedgerInv.opened_step (hi : LedgerInv c log s) (h : Opened c s s' b taken) :
    LedgerInv c ((op, .claim (.claimed b)) :: log) s' := by
  obtain ⟨hchain, hdel⟩ := hi.chain.opened h
  refine hi.claim_step hchain (fun b' hb' => ?_) h.events h.generation h.claimed
  rcases List.mem_cons.mp hb' with rfl | hb'
  · refine ⟨_, h.batch, rfl, rfl, rfl, ?_⟩
    rw [hdel]
    exact h.delivers
  · -- without a batch in flight nothing was claimed since the last acknowledgement
    obtain ⟨b₀, hsome, -⟩ := hi.shown b' hb'
    rw [h.idle] at hsome
    cases hsome

theorem LedgerInv.reclaimed_step (hi : LedgerInv c log s) (h : Reclaimed c s s' b b₀) :
    LedgerInv c ((op, .claim (.claimed b)) :: log) s' := by
  have hf := framed_of_reclaimed h
  obtain ⟨hlast, d, hd⟩ := hi.chain.inflight b₀ h.inflight
  -- the digest was set by the first claim, so it is the one computed again
  have hdigest : b.digest = d := by
    rcases h.digest with hnone | hsome
    · simp [hd] at hnone
    · rw [hd] at hsome
      exact (Option.some.inj hsome).symm
  have hrange := hi.chain.range_eq hlast
  refine hi.claim_step (hi.chain.frame hf) (fun b' hb' => ?_) h.events h.generation h.claimed
  refine ⟨_, h.batch, ?_⟩
  rcases List.mem_cons.mp hb' with rfl | hb'
  · refine ⟨h.first, h.last, rfl, ?_⟩
    rw [hf.deliveries, ← hrange]
    exact h.delivers
  · obtain ⟨b₁, hsome, hshows⟩ := hi.shown b' hb'
    rw [h.inflight] at hsome
    cases hsome
    refine ⟨hshows.first, hshows.last, ?_, ?_⟩
    · have hb'd := hshows.digest
      rw [hd] at hb'd
      rw [hdigest]
      exact hb'd
    · rw [hf.deliveries]
      exact hshows.delivers

theorem LedgerInv.acknowledged_step (hi : LedgerInv c log s) {ack : SecurityAuditBatchAck}
    (ha : op.action = .ack ack) (h : Acknowledged s s' ack op.now b₀) :
    LedgerInv c ((op, .acknowledged (s.deliveries c (s.range ack.lastSequence))) :: log) s' := by
  obtain ⟨hchain, hrange⟩ := hi.chain.acknowledged h
  rw [hrange]
  have hins : insertedBy (op, .acknowledged (s.deliveries c s.chain)) = [] := by simp [insertedBy, ha]
  obtain ⟨t, rfl⟩ := h.result
  have hids : memberIds s ack.lastSequence = s.chain.map (·.eventId) := by
    rw [memberIds, hrange]
    exact memberIds_eq hi.chain.joined
  have hexported : exported ((op, .acknowledged (s.deliveries c s.chain)) :: log) = exported log
    ++ s.deliveries c s.chain := rfl
  refine ⟨?_, ?_, ?_, ?_, ?_, ?_⟩
  · rw [hexported]
    exact hchain
  · exact fun b hb => absurd hb List.not_mem_nil
  · exact generation_step hi.generation (Nat.le_refl _) fun b hb => by cases hb
  · intro id
    rw [insertions_of_nil hins, hi.conserved id, hexported, List.countP_append, pendingCount, pendingCount,
      unexported_deliver, hids]
    have hcount : (s.deliveries c s.chain).countP (fun d => d.eventId = id)
        = (s.chain.map (·.eventId)).count id := by
      rw [← ids_of_deliveries (c := c) hi.chain.joined, List.count, List.countP_map]
      exact List.countP_congr fun d _ => by simp
    by_cases hid : id ∈ s.chain.map (·.eventId)
    · obtain ⟨e, he, rfl⟩ := List.mem_map.mp hid
      obtain ⟨r, hr⟩ := hi.chain.joined e he
      rw [hcount, List.count_eq_one_of_mem hi.chain.ids hid, if_pos hid, hr]
      rfl
    · rw [hcount, List.count_eq_zero.mpr hid, if_neg hid]
      rfl
  · intro r hr hp
    rw [insertions_of_nil hins]
    have hun := unexported_eq_some.mpr ⟨hr, rfl, hp⟩
    rw [unexported_deliver] at hun
    split_ifs at hun
    exact hi.origin r (unexported_eq_some.mp hun).1 hp
  · intro d hd
    rw [insertions_of_nil hins]
    rw [hexported] at hd
    rcases List.mem_append.mp hd with hd | hd
    · exact hi.carried d hd
    obtain ⟨⟨e, r⟩, hmem, rfl⟩ := List.mem_map.mp hd
    obtain ⟨e', -, hsome⟩ := List.mem_filterMap.mp hmem
    obtain ⟨r', hr', heq⟩ := Option.map_eq_some_iff.mp hsome
    obtain ⟨rfl, rfl⟩ := Prod.mk.inj heq
    obtain ⟨hmem', -, hp⟩ := unexported_eq_some.mp hr'
    exact ⟨r'.event, hi.origin r' hmem' hp, carries_delivery e' r'⟩

theorem ledgerInv_of_run (hr : Run (exec c) Ledger.initial log s) : LedgerInv c log s := by
  refine Run.invariant (fun _ _ _ => trivial) ledgerInv_initial ?_ hr trivial
  intro log s op s' out _ _ hi he
  cases effect_of_exec hi.chain.idle he with
  | held h hq =>
    refine hi.quiet_step (hi.chain.framed_of_held h) h.batch h.generation (fun id => ?_) hq
    rw [Ledger.unexported, h.events, Ledger.unexported]
  | grown h hins hcl hack => exact hi.grown_step h hins hcl hack
  | cleaned hgone hq => exact hi.quiet_step (hi.chain.framed_of_cleaned hgone) rfl rfl (unexported_delete hgone) hq
  | opened h => exact hi.opened_step h
  | reclaimed h => exact hi.reclaimed_step h
  | acknowledged ha h => exact hi.acknowledged_step ha h

/-! ## The result -/

/-- Two claims of one batch: all but the generation and the number of attempts is the same. -/
structure SameBatch (a b : SecurityAuditBatch) : Prop where
  firstSequence : a.firstSequence = b.firstSequence
  lastSequence : a.lastSequence = b.lastSequence
  previousHash : a.previousHash = b.previousHash
  lastHash : a.lastHash = b.lastHash
  digest : a.digest = b.digest
  deliveries : a.deliveries = b.deliveries

theorem Shows.same {a : SecurityAuditBatch} {ds : List SecurityAuditPendingDelivery}
    (ha : Shows a b₀ ds) (hb : Shows b b₀ ds) : SameBatch a b where
  firstSequence := ha.first.trans hb.first.symm
  lastSequence := ha.last.trans hb.last.symm
  previousHash := Option.some.inj (ha.delivers.previousHash.symm.trans hb.delivers.previousHash)
  lastHash := Option.some.inj (ha.delivers.lastHash.symm.trans hb.delivers.lastHash)
  digest := Option.some.inj (ha.digest.symm.trans hb.digest)
  deliveries := ha.delivers.deliveries.trans hb.delivers.deliveries.symm

theorem LedgerInv.kept_step (hi : LedgerInv c log s) (he : exec c s op = (s', out)) (hr : r ∈ s.events.rows)
    (hp : r.pending = true) : r ∈ s'.events.rows ∨ ∃ ds, out = .acknowledged ds
      ∧ ∃ d ∈ ds, Carries c d r.event := by
  cases effect_of_exec hi.chain.idle he with
  | held h => exact .inl (h.events ▸ hr)
  | grown h =>
    left
    rw [h.rows]
    exact List.mem_append_right _ hr
  | cleaned hgone =>
    refine .inl (Table.mem_delete.mpr ⟨hr, ?_⟩)
    by_contra hg
    rw [hgone r hr (by simpa using hg)] at hp
    cases hp
  | opened h | reclaimed h => exact .inl (h.events ▸ hr)
  | @acknowledged _ ack _ _ h =>
    obtain ⟨t, rfl⟩ := h.result
    have hun : s.unexported r.key = some r := unexported_eq_some.mpr ⟨hr, rfl, hp⟩
    by_cases hid : r.key ∈ memberIds s ack.lastSequence
    · right
      obtain ⟨⟨e, r'⟩, hmem, hkey⟩ := List.mem_map.mp hid
      obtain ⟨e', he', hsome⟩ := List.mem_filterMap.mp hmem
      obtain ⟨r₁, hr₁, heq⟩ := Option.map_eq_some_iff.mp hsome
      obtain ⟨rfl, rfl⟩ := Prod.mk.inj heq
      have hsame : r₁ = r := List.inj_on_of_nodup_map s.events.nodup (unexported_eq_some.mp hr₁).1 hr hkey
      subst hsame
      exact ⟨_, rfl, delivery c e' r₁, List.mem_map.mpr ⟨(e', r₁), hmem, rfl⟩, carries_delivery e' r₁⟩
    · left
      have hafter := unexported_deliver (s := s) (memberIds s ack.lastSequence) ack t op.now r.key
      rw [if_neg hid, hun] at hafter
      exact (unexported_eq_some.mp hafter).1

def sampleEncodings : Encodings where
  blake3 := fun bytes => BitVec.ofNat 256 (bytes.foldl (fun a b => a * 257 + b.toNat) 1)
  payloadText := fun _ => ""
  payloadEq := fun a b => a = b
  payloadBytes := fun _ => 2
  eventWireLength := fun _ => 300
  emptyEnvelopeWireLength := fun _ _ _ _ => 400

def sampleEvent (id : Uuid) : SecurityAuditEvent := ⟨id, "login_failed", "authentication", .obj [], 0⟩

def sampleHash (sequence : Nat) (previousHash : Digest) (id : Uuid) : Digest :=
  rowHash sampleEncodings sequence previousHash ⟨sampleEvent id, none, none⟩

def sampleAck (generation sequence : Nat) (previousHash eventHash : Digest) : SecurityAuditBatchAck :=
  ⟨generation, "main", sequence, sequence, 1, eventHash,
    securityAuditBatchDigest sampleEncodings "main" sequence sequence 1 previousHash eventHash [eventHash]⟩

def claimAt (t : Instant) : Op := ⟨.claim "main" 1 131072 60 t, t, t⟩

/-- A writer whose append committed but whose answer was lost retries it after the
acknowledgement. -/
def retryOps : List Op :=
  [⟨.append [sampleEvent 1], 0, 0⟩, claimAt 1,
    ⟨.ack (sampleAck 1 1 genesisHash (sampleHash 1 genesisHash 1)), 2, 2⟩,
    ⟨.append [sampleEvent 1], 3, 3⟩, claimAt 4,
    ⟨.ack (sampleAck 2 2 (sampleHash 1 genesisHash 1) (sampleHash 2 (sampleHash 1 genesisHash 1) 1)), 5, 5⟩]

def retry : Log × Ledger := execAll (exec sampleEncodings) Ledger.initial [] retryOps

end NazoAuth.Audit
