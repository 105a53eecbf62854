import SimMultichain.Impl.Ump

/-!
# A round of upward messages

`process_pending_upward_messages` works on queues that it reads once and writes
back at its end, and on a cursor into the list of the paras to visit. Here a round is
related to the queues as they were at its start: a turn takes the first message that is
left in the queue of the para it visits (`turn_cases`), and in every state of a round the
messages taken from a para are the first ones of its queue, while the cursor's list has the
paras with messages left (`Running`).

* `round_ends`: a round ends by itself, and what it took and what it left is what the queues held;
* `rounds_drain`: as many rounds as there are messages empty the queues.
-/

namespace SIM.Proof.Ump

open SIM.Impl (ParaId Weight)
open SIM.Impl.Relay

/-! ## What was taken -/

/-- The messages of a para, of those taken. -/
def takenFrom (para : ParaId) (taken : List Taken) : List UpwardMessage :=
  (taken.filter (·.para = para)).map Taken.msg

theorem takenFrom_snoc (para : ParaId) (taken : List Taken) (t : Taken) :
    takenFrom para (taken ++ [t]) =
      takenFrom para taken ++ if t.para = para then [t.msg] else [] := by
  unfold takenFrom
  rw [List.filter_append, List.map_append, List.filter_singleton]
  split_ifs with h <;> simp [h]

theorem length_takenFrom_cons (para : ParaId) (t : Taken) (taken : List Taken) :
    (takenFrom para (t :: taken)).length =
      (if t.para = para then 1 else 0) + (takenFrom para taken).length := by
  unfold takenFrom
  rw [List.filter_cons]
  split_ifs with h h' h' <;> simp_all
  omega

/-- All that was taken, para by para. -/
theorem sum_length_takenFrom {paras : List ParaId} (hn : paras.Nodup) {taken : List Taken}
    (h : ∀ t ∈ taken, t.para ∈ paras) :
    (paras.map fun p => (takenFrom p taken).length).sum = taken.length := by
  induction taken with
  | nil => simp [takenFrom]
  | cons t taken ih =>
    rw [List.forall_mem_cons] at h
    have hone : (paras.map fun p => if t.para = p then 1 else 0).sum = 1 := by
      rw [List.sum_map_eq_nsmul_single t.para _ fun p hp _ => if_neg (Ne.symm hp),
        List.count_eq_one_of_mem hn h.1, if_pos rfl, one_smul]
    simp only [length_takenFrom_cons]
    rw [List.sum_map_add, hone, ih h.2, List.length_cons, Nat.add_comm]

/-! ## The cache -/

section Cache

variable (s : Impl.Relay.Ump) (cache : QueueCache)

@[simp] theorem ensureCached_empty (para : ParaId) :
    QueueCache.ensureCached s .empty para =
      ⟨s.relayDispatchQueues para, (s.relayDispatchQueueSize para).size, 0, 0⟩ := by
  simp [QueueCache.ensureCached]

theorem ensureCached_insert (para p : ParaId) (e : QueueCacheEntry) :
    QueueCache.ensureCached s (cache.insert para e) p =
      if p = para then e else QueueCache.ensureCached s cache p := by
  unfold QueueCache.ensureCached
  rw [StorageMap.get_insert]
  split_ifs <;> simp_all

theorem insert_insert (para : ParaId) (e e' : QueueCacheEntry) :
    StorageMap.insert (cache.insert para e) para e' = cache.insert para e' := by
  apply StorageMap.ext
  funext p
  simp only [StorageMap.get_insert]
  split_ifs <;> rfl

/-- Reading a queue into the cache. -/
@[simp] theorem ensureCached_insert_self (para p : ParaId) :
    QueueCache.ensureCached s (cache.insert para (QueueCache.ensureCached s cache para)) p =
      QueueCache.ensureCached s cache p := by
  rw [ensureCached_insert]
  split_ifs with h
  · rw [h]
  · rfl

end Cache

/-- An entry after its front was consumed. -/
def consumed (e : QueueCacheEntry) (msg : UpwardMessage) : QueueCacheEntry :=
  { e with
    queue := e.queue.set e.consumedCount []
    consumedCount := e.consumedCount + 1
    consumedSize := e.consumedSize + msg.length }

/-! ## A turn -/

/-- The entry of a para in a state of a round. -/
def entry (r : Round) (p : ParaId) : QueueCacheEntry := QueueCache.ensureCached r.storage r.cache p

/-- The loop was left: nothing was taken. -/
structure Stopped (r r' : Round) : Prop where
  storage : r'.storage.relayDispatchQueues = r.storage.relayDispatchQueues
  entry : ∀ p, entry r' p = entry r p
  cursor : r'.cursor = r.cursor
  taken : r'.taken = r.taken

/-- A turn that took the message `msg` of the para `p`. -/
structure Took (p : ParaId) (msg : UpwardMessage) (r r' : Round) : Prop where
  storage : r'.storage.relayDispatchQueues = r.storage.relayDispatchQueues
  taken : ∃ t : Taken, t.para = p ∧ t.msg = msg ∧ r'.taken = r.taken ++ [t]
  entry : ∀ q, entry r' q = if q = p then consumed (entry r p) msg else entry r q
  cursor : r'.cursor = if (Ump.entry r p).queue.length ≤ (Ump.entry r p).consumedCount + 1
    then r.cursor.remove else r.cursor.advance

variable {config : HostConfiguration} {f : Weight} {sink : UmpSink} {s : Impl.Relay.Ump}
  {r r' : Round}

/-- A turn at the end of the list. -/
theorem turn_none (hp : r.cursor.peek = none) : r.turn config f sink = .error r := by
  simp only [Round.turn, hp]

/-- After a message was consumed the cursor goes on, and a queue that is used up leaves its list. -/
theorem took_proceed {p : ParaId} {msg : UpwardMessage} {t : Taken} {storage : Impl.Relay.Ump}
    {w : Weight} {calls : Nat} {events : List Ump.Event} (ht : t.para = p) (hm : t.msg = msg)
    (hq : storage.relayDispatchQueues = r.storage.relayDispatchQueues)
    (hs : ∀ cache q, QueueCache.ensureCached storage cache q = QueueCache.ensureCached r.storage cache q) :
    Took p msg r (Round.proceed ⟨storage, r.cursor, r.cache.insert p (consumed (entry r p) msg), w,
      calls, r.taken ++ [t], events⟩ p) := by
  have he : ∀ q, QueueCache.ensureCached storage (r.cache.insert p (consumed (entry r p) msg)) q =
      if q = p then consumed (entry r p) msg else entry r q := by
    intro q
    rw [hs, ensureCached_insert]
    rfl
  refine ⟨hq, ⟨t, ht, hm, rfl⟩, fun q => ?_, ?_⟩
  · change QueueCache.ensureCached storage (StorageMap.insert _ p
      (QueueCache.ensureCached storage _ p)) q = _
    rw [ensureCached_insert_self, he]
  · change (if decide _ = true then _ else _) = _
    rw [he, if_pos rfl]
    simp [consumed]

/-- Why the loop is left at a message: the weight of the round is used up, or what is left of it is
not enough for the message, which is not too heavy for every round. -/
def Refused (config : HostConfiguration) (f : Weight) (sink : UmpSink) (r : Round) (p : ParaId)
    (msg : UpwardMessage) : Prop :=
  config.umpServiceTotalWeight ≤ r.weightUsed ∨
    ∃ id required, sink r.calls p msg (r.maxWeight config f) = .error (id, required) ∧
      required ≤ config.umpMaxIndividualWeight

/-- A turn with a para to visit that has a message left: it is taken, or the loop is left. -/
theorem turn_cases {p : ParaId} {msg : UpwardMessage} (hp : r.cursor.peek = some p)
    (hm : (entry r p).queue[(entry r p).consumedCount]? = some msg) :
    (∃ r', r.turn config f sink = .error r' ∧ Stopped r r' ∧ Refused config f sink r p msg) ∨
      ∃ r', r.turn config f sink = .ok r' ∧ Took p msg r r' := by
  have hpeek : QueueCache.peekFront r.storage r.cache p =
      (r.cache.insert p (entry r p), some msg) := Prod.ext rfl hm
  have hcons : QueueCache.consumeFront r.storage (r.cache.insert p (entry r p)) p =
      (r.cache.insert p (consumed (entry r p) msg), some msg) := by
    have hself : QueueCache.ensureCached r.storage (r.cache.insert p (entry r p)) p = entry r p :=
      ensureCached_insert_self ..
    simp only [QueueCache.consumeFront, hself, hm, insert_insert]
    rfl
  simp only [Round.turn, hp, hpeek]
  split_ifs with hw
  · exact .inl ⟨r, rfl, ⟨rfl, fun _ => rfl, rfl, rfl⟩, .inl hw⟩
  · cases hsink : sink r.calls p msg (r.maxWeight config f) with
    | ok used =>
      simp only [hcons]
      exact .inr ⟨_, rfl, took_proceed rfl rfl rfl fun _ _ => rfl⟩
    | error e =>
      obtain ⟨id, required⟩ := e
      simp only
      split_ifs with hr
      · simp only [hcons]
        exact .inr ⟨_, rfl, took_proceed rfl rfl rfl fun _ _ => rfl⟩
      · exact .inl ⟨_, rfl, ⟨rfl, fun q => ensureCached_insert_self .., rfl, rfl⟩,
          .inr ⟨id, required, hsink, UInt64.not_lt.mp hr⟩⟩

/-! ## The cursor -/

section Cursor

variable {c : NeedsDispatchCursor} {p q : ParaId}

/-- The cursor is at one of the paras, if there are any. -/
def Valid (c : NeedsDispatchCursor) : Prop :=
  c.needsDispatch.items ≠ [] → c.index < c.needsDispatch.items.length

theorem peek_eq_none (h : Valid c) : c.peek = none ↔ c.needsDispatch.items = [] := by
  refine ⟨fun hn => ?_, fun hn => by simp [NeedsDispatchCursor.peek, hn]⟩
  by_contra hne
  have hlt := h hne
  rw [NeedsDispatchCursor.peek, List.getElem?_eq_none_iff] at hn
  omega

theorem mem_of_peek (h : c.peek = some p) : p ∈ c.needsDispatch := List.mem_of_getElem? h

theorem valid_new (s : Impl.Relay.Ump) : Valid (.new s) := by
  intro hne
  have hpos : 0 < s.needsDispatch.items.length := List.length_pos_iff.mpr hne
  unfold NeedsDispatchCursor.new
  dsimp only
  split
  · split
    · rename_i hs
      exact (List.getElem?_eq_some_iff.mp (SortedVec.search_ok hs)).1
    · exact hpos
  · exact hpos

@[simp] theorem needsDispatch_advance : c.advance.needsDispatch = c.needsDispatch := by
  unfold NeedsDispatchCursor.advance
  split_ifs <;> rfl

theorem valid_advance (h : Valid c) : Valid c.advance := by
  unfold NeedsDispatchCursor.advance
  split_ifs with he
  · exact h
  · intro hne
    exact Nat.mod_lt _ (List.length_pos_iff.mpr hne)

theorem not_isEmpty_of_peek (h : c.peek = some p) : ¬ c.needsDispatch.items.isEmpty = true := by
  rw [List.isEmpty_iff]
  exact List.ne_nil_of_mem (mem_of_peek h)

/-- The para at the cursor leaves the list. -/
theorem mem_remove (h : c.peek = some p) : q ∈ c.remove.needsDispatch ↔ q ≠ p ∧ q ∈ c.needsDispatch := by
  obtain ⟨hi, rfl⟩ := List.getElem?_eq_some_iff.mp h
  simp only [NeedsDispatchCursor.remove, if_neg (not_isEmpty_of_peek h)]
  change q ∈ c.needsDispatch.items.eraseIdx c.index ↔ _
  rw [← c.needsDispatch.nodup.erase_getElem c.index hi, c.needsDispatch.nodup.mem_erase_iff,
    SortedVec.mem_items]

theorem valid_remove (h : c.peek = some p) : Valid c.remove := by
  simp only [NeedsDispatchCursor.remove, if_neg (not_isEmpty_of_peek h)]
  intro hne
  dsimp only
  split_ifs with hn
  · exact List.length_pos_iff.mpr hne
  · rw [Option.isNone_iff_eq_none, List.getElem?_eq_none_iff, not_le] at hn
    exact hn

end Cursor

/-! ## A state of a round -/

/-- What holds in every state of a round that starts from the storage `s`. -/
structure Running (s : Impl.Relay.Ump) (r : Round) : Prop where
  storage : r.storage.relayDispatchQueues = s.relayDispatchQueues
  /-- The messages taken from a para are the first ones of its queue. -/
  taken : ∀ p, takenFrom p r.taken <+: s.relayDispatchQueues p
  consumed : ∀ p, (entry r p).consumedCount = (takenFrom p r.taken).length
  length : ∀ p, (entry r p).queue.length = (s.relayDispatchQueues p).length
  /-- What is left of a queue is left as it was. -/
  left : ∀ p, (entry r p).queue.drop (entry r p).consumedCount =
    (s.relayDispatchQueues p).drop (takenFrom p r.taken).length
  /-- The cursor's list has the paras with messages left. -/
  visits : ∀ p, p ∈ r.cursor.needsDispatch ↔
    (takenFrom p r.taken).length < (s.relayDispatchQueues p).length
  visited : ∀ t ∈ r.taken, s.relayDispatchQueues t.para ≠ []
  cursor : Valid r.cursor

/-- The paras to visit are those with messages. -/
def Listed (s : Impl.Relay.Ump) : Prop :=
  ∀ p, p ∈ s.needsDispatch ↔ s.relayDispatchQueues p ≠ []

theorem Running.start (h : Listed s) : Running s (.start s) where
  storage := rfl
  taken _ := List.nil_prefix
  consumed _ := by simp [entry, Round.start, takenFrom]
  length _ := by simp [entry, Round.start]
  left _ := by simp [entry, Round.start, takenFrom]
  visits p := by
    rw [show (Round.start s).cursor.needsDispatch = s.needsDispatch from rfl, h p]
    simp [Round.start, takenFrom, List.length_pos_iff]
  visited _ ht := by cases ht
  cursor := valid_new s

theorem Running.stopped (h : Running s r) (hs : Stopped r r') : Running s r' where
  storage := hs.storage.trans h.storage
  taken p := hs.taken ▸ h.taken p
  consumed p := by rw [hs.entry, hs.taken, h.consumed]
  length p := by rw [hs.entry, h.length]
  left p := by rw [hs.entry, hs.taken, h.left]
  visits p := by rw [hs.cursor, hs.taken, h.visits]
  visited := hs.taken ▸ h.visited
  cursor := hs.cursor ▸ h.cursor

/-- The front of what is left in the cache is that of what is left of the queue. -/
theorem Running.front (h : Running s r) (p : ParaId) :
    (entry r p).queue[(entry r p).consumedCount]? =
      (s.relayDispatchQueues p)[(takenFrom p r.taken).length]? := by
  rw [← List.head?_drop, h.left, List.head?_drop]

theorem Took.takenFrom_eq {p : ParaId} {msg : UpwardMessage} (ht : Took p msg r r') (q : ParaId) :
    takenFrom q r'.taken = if q = p then takenFrom p r.taken ++ [msg] else takenFrom q r.taken := by
  obtain ⟨t, htp, htm, htaken⟩ := ht.taken
  rw [htaken, takenFrom_snoc, htp, htm]
  by_cases hq : q = p
  · rw [if_pos hq, if_pos hq.symm, hq]
  · rw [if_neg hq, if_neg (Ne.symm hq), List.append_nil]

theorem Running.took (h : Running s r) {p : ParaId} {msg : UpwardMessage}
    (hp : r.cursor.peek = some p)
    (hm : (s.relayDispatchQueues p)[(takenFrom p r.taken).length]? = some msg)
    (ht : Took p msg r r') : Running s r' := by
  obtain ⟨hlt, hget⟩ := List.getElem?_eq_some_iff.mp hm
  have hcur : r'.cursor = if (s.relayDispatchQueues p).length ≤ (takenFrom p r.taken).length + 1
      then r.cursor.remove else r.cursor.advance := by
    rw [ht.cursor, h.length, h.consumed]
  refine ⟨ht.storage.trans h.storage, fun q => ?_, fun q => ?_, fun q => ?_, fun q => ?_,
    fun q => ?_, ?_, ?_⟩
  · rw [ht.takenFrom_eq]
    split_ifs with hq
    · subst hq
      have htake := List.prefix_iff_eq_take.mp (h.taken q)
      rw [← hget]
      nth_rewrite 1 [htake]
      rw [List.take_append_getElem]
      exact List.take_prefix ..
    · exact h.taken q
  · rw [ht.takenFrom_eq, ht.entry]
    split_ifs with hq
    · rw [List.length_append, List.length_singleton, ← h.consumed]
      rfl
    · exact h.consumed q
  · rw [ht.entry]
    split_ifs with hq
    · rw [hq, ← h.length p]
      exact List.length_set
    · exact h.length q
  · rw [ht.takenFrom_eq, ht.entry]
    split_ifs with hq
    · -- one message less on both sides
      have hleft := congrArg (List.drop 1) (h.left p)
      rw [List.drop_drop, List.drop_drop] at hleft
      rw [List.length_append, List.length_singleton, hq, ← hleft]
      exact List.drop_set_of_lt (Nat.lt_succ_self _)
    · exact h.left q
  · rw [ht.takenFrom_eq, hcur]
    by_cases hq : q = p
    · subst hq
      rw [if_pos rfl, List.length_append, List.length_singleton]
      split_ifs with hle
      · rw [mem_remove hp]
        exact ⟨fun hmem => absurd rfl hmem.1, fun hlt' => absurd hlt' (not_lt.mpr hle)⟩
      · rw [needsDispatch_advance, h.visits]
        omega
    · rw [if_neg hq]
      split_ifs with hle
      · rw [mem_remove hp, h.visits, and_iff_right hq]
      · rw [needsDispatch_advance, h.visits]
  · obtain ⟨t, htp, -, htaken⟩ := ht.taken
    intro t' ht'
    rw [htaken, List.mem_append, List.mem_singleton] at ht'
    rcases ht' with ht' | rfl
    · exact h.visited t' ht'
    · rw [htp]
      exact List.ne_nil_of_length_pos (Nat.zero_lt_of_lt hlt)
  · rw [hcur]
    split_ifs
    · exact valid_remove hp
    · exact valid_advance h.cursor

/-- A turn of the loop: it is left, or one more message was taken. -/
theorem Running.turn (h : Running s r) :
    (∃ r', r.turn config f sink = .error r' ∧ Running s r' ∧ r'.taken = r.taken) ∨
      ∃ r' t, r.turn config f sink = .ok r' ∧ Running s r' ∧ r'.taken = r.taken ++ [t] := by
  cases hp : r.cursor.peek with
  | none => exact .inl ⟨r, turn_none hp, h, rfl⟩
  | some p =>
    have hlt := (h.visits p).mp (mem_of_peek hp)
    have hm := List.getElem?_eq_getElem hlt
    rcases turn_cases hp ((h.front p).trans hm) with ⟨r', he, hs, -⟩ | ⟨r', he, ht⟩
    · exact .inl ⟨r', he, h.stopped hs, hs.taken⟩
    · obtain ⟨t, -, -, htaken⟩ := ht.taken
      exact .inr ⟨r', t, he, h.took hp hm ht, htaken⟩

theorem Running.loop (h : Running s r) (n : Nat) :
    Running s (Round.loop config f sink n r) ∧ r.taken <+: (Round.loop config f sink n r).taken := by
  induction n generalizing r with
  | zero => exact ⟨h, List.prefix_rfl⟩
  | succ n ih =>
    rw [Round.loop]
    rcases h.turn with ⟨r', he, h', htaken⟩ | ⟨r', t, he, h', htaken⟩
    · rw [he]
      exact ⟨h', htaken ▸ List.prefix_rfl⟩
    · rw [he]
      obtain ⟨hr, hpre⟩ := ih h'
      exact ⟨hr, ((List.prefix_append _ [t]).trans (htaken ▸ List.prefix_rfl)).trans hpre⟩

/-! ## Receiving and cleaning up -/

theorem Listed.empty : Listed Ump.empty := fun p =>
  iff_of_false (SortedVec.not_mem_empty p) (fun hne => hne rfl)

/-- The messages of a candidate go to the end of its para's queue. -/
theorem queues_receive (para : ParaId) (msgs : List UpwardMessage) (s : Impl.Relay.Ump) (p : ParaId) :
    (s.receiveUpwardMessages para msgs).1.relayDispatchQueues p =
      s.relayDispatchQueues p ++ if para = p then msgs else [] := by
  unfold Ump.receiveUpwardMessages
  split_ifs with he hp hp
  · rw [List.isEmpty_iff.mp he, List.append_nil]
  · rw [List.append_nil]
  · subst hp
    exact Function.update_self ..
  · rw [List.append_nil]
    exact Function.update_of_ne (Ne.symm hp) ..

theorem Listed.receive (h : Listed s) (para : ParaId) (msgs : List UpwardMessage) :
    Listed (s.receiveUpwardMessages para msgs).1 := by
  intro p
  rw [queues_receive]
  unfold Ump.receiveUpwardMessages
  split_ifs with he hp hp
  · rw [List.isEmpty_iff.mp he, List.append_nil]
    exact h p
  · rw [List.append_nil]
    exact h p
  · have hne : msgs ≠ [] := fun hnil => he (List.isEmpty_iff.mpr hnil)
    refine iff_of_true (SortedVec.mem_insert.mpr (.inl hp.symm)) ?_
    exact List.append_ne_nil_of_right_ne_nil _ hne
  · rw [List.append_nil]
    exact SortedVec.mem_insert.trans ((or_iff_right (Ne.symm hp)).trans (h p))

/-- The queues of paras that go are emptied. -/
theorem queues_cleanup (outgoing : List ParaId) (s : Impl.Relay.Ump) (p : ParaId) :
    (s.performOutgoingParaCleanup outgoing).relayDispatchQueues p =
      if p ∈ outgoing then [] else s.relayDispatchQueues p := by
  unfold Ump.performOutgoingParaCleanup
  induction outgoing generalizing s with
  | nil => simp
  | cons q outgoing ih =>
    rw [List.foldl_cons, ih]
    simp only [Ump.cleanUmpAfterOutgoing, Function.update_apply, List.mem_cons]
    split_ifs <;> simp_all

theorem Listed.cleanup (h : Listed s) (outgoing : List ParaId) :
    Listed (s.performOutgoingParaCleanup outgoing) := by
  unfold Ump.performOutgoingParaCleanup
  induction outgoing generalizing s with
  | nil => exact h
  | cons q outgoing ih =>
    refine ih fun p => ?_
    change p ∈ s.needsDispatch.remove q ↔ Function.update s.relayDispatchQueues q [] p ≠ []
    rw [SortedVec.mem_remove, h p, Function.update_apply]
    split_ifs with hp
    · exact iff_of_false (fun hne => hne.1 hp) (fun hne => hne rfl)
    · exact and_iff_right hp

/-- The start of the next round is none of the paras to visit. -/
def Stale (s : Impl.Relay.Ump) : Prop :=
  ∀ p, s.nextDispatchRoundStartWith = some p → p ∉ s.needsDispatch

theorem stale_clean (para : ParaId) (s : Impl.Relay.Ump) : Stale (s.cleanUmpAfterOutgoing para) := by
  intro p hp
  -- the filter keeps the para that goes and drops every other
  obtain ⟨-, hpara⟩ := Option.filter_eq_some_iff.mp hp
  obtain rfl : p = para := of_decide_eq_true hpara
  exact fun hmem => (SortedVec.mem_remove.mp hmem).1 rfl

theorem stale_cleanup {outgoing : List ParaId} (hne : outgoing ≠ []) (s : Impl.Relay.Ump) :
    Stale (s.performOutgoingParaCleanup outgoing) := by
  obtain ⟨init, p, rfl⟩ := (List.eq_nil_or_concat outgoing).resolve_left hne
  rw [Ump.performOutgoingParaCleanup, List.concat_eq_append, List.foldl_append]
  exact stale_clean p _

/-- The start of the next round is kept if every para that goes is that one, and dropped
otherwise. -/
theorem start_cleanup (outgoing : List ParaId) (s : Impl.Relay.Ump) :
    (s.performOutgoingParaCleanup outgoing).nextDispatchRoundStartWith =
      s.nextDispatchRoundStartWith.filter fun p => ∀ q ∈ outgoing, p = q := by
  unfold Ump.performOutgoingParaCleanup
  induction outgoing generalizing s with
  | nil => cases hs : s.nextDispatchRoundStartWith <;> simp [hs, Option.filter]
  | cons q outgoing ih =>
    rw [List.foldl_cons, ih]
    simp only [Ump.cleanUmpAfterOutgoing, Option.filter_filter, List.forall_mem_cons,
      Bool.decide_and]

/-- A start that is not to be visited is no start: the round begins with the first para. -/
theorem Stale.peek_new (h : Stale s) :
    (NeedsDispatchCursor.new s).peek = s.needsDispatch.items.head? := by
  have hindex : (NeedsDispatchCursor.new s).index = 0 := by
    unfold NeedsDispatchCursor.new
    dsimp only
    split
    · rename_i p hp
      split
      · rename_i hs
        exact absurd (List.mem_of_getElem? (SortedVec.search_ok hs)) (h p hp)
      · rfl
    · rfl
  rw [NeedsDispatchCursor.peek, hindex, List.head?_eq_getElem?]
  rfl

/-! ## The end of a round -/

/-- The number of messages in the queues to visit. -/
def messages (s : Impl.Relay.Ump) : Nat :=
  (s.needsDispatch.items.map fun p => (s.relayDispatchQueues p).length).sum

/-- No more is taken than there are messages. -/
theorem Running.length_taken_le (h : Running s r) (hl : Listed s) : r.taken.length ≤ messages s := by
  have hmem : ∀ t ∈ r.taken, t.para ∈ s.needsDispatch.items := fun t ht =>
    (hl t.para).mpr (h.visited t ht)
  calc r.taken.length
      = (s.needsDispatch.items.map fun p => (takenFrom p r.taken).length).sum :=
        (sum_length_takenFrom s.needsDispatch.nodup hmem).symm
    _ ≤ messages s := List.sum_le_sum fun p _ => (h.taken p).length_le

/-- One of the next `n` turns leaves the loop, in the state `r'`. -/
inductive Leaves (config : HostConfiguration) (f : Weight) (sink : UmpSink) :
    Nat → Round → Round → Prop
  | now {n : Nat} {r r' : Round} (h : r.turn config f sink = .error r') :
      Leaves config f sink (n + 1) r r'
  | later {n : Nat} {r r₁ r' : Round} (h : r.turn config f sink = .ok r₁)
      (h' : Leaves config f sink n r₁ r') : Leaves config f sink (n + 1) r r'

/-- The loop ends in the state in which it is left. -/
theorem Leaves.loop_eq {n m : Nat} (h : Leaves config f sink n r r') (hle : n ≤ m) :
    Round.loop config f sink m r = r' := by
  induction h generalizing m with
  | now h =>
    obtain ⟨m, rfl⟩ : ∃ k, m = k + 1 := ⟨m - 1, by omega⟩
    rw [Round.loop, h]
  | later h h' ih =>
    obtain ⟨m, rfl⟩ : ∃ k, m = k + 1 := ⟨m - 1, by omega⟩
    rw [Round.loop, h]
    exact ih (by omega)

/-- Every turn takes a message or leaves the loop, so that it is left after the last message. -/
theorem Running.exists_leaves (h : Running s r) (hl : Listed s) {n : Nat}
    (hn : messages s < r.taken.length + n) : ∃ r', Leaves config f sink n r r' := by
  induction n generalizing r with
  | zero => exact absurd (h.length_taken_le hl) (by omega)
  | succ n ih =>
    rcases h.turn with ⟨r', he, -⟩ | ⟨r₁, t, he, h', htaken⟩
    · exact ⟨r', .now he⟩
    · have hlength : r₁.taken.length = r.taken.length + 1 := by
        rw [htaken, List.length_append, List.length_singleton]
      obtain ⟨r', hr'⟩ := ih h' (by omega)
      exact ⟨r', .later he hr'⟩

/-- What is written back: the messages that are left. -/
theorem Running.flush (h : Running s r) (p : ParaId) :
    (QueueCache.flush (r.cursor.flush r.storage) r.cache).relayDispatchQueues p =
      (s.relayDispatchQueues p).drop (takenFrom p r.taken).length := by
  have hstore : r.storage.relayDispatchQueues p = s.relayDispatchQueues p := congrFun h.storage p
  have hleft := h.left p
  have hlen := h.length p
  have hcons := h.consumed p
  rw [← hleft]
  simp only [QueueCache.flush, NeedsDispatchCursor.flush]
  cases hc : r.cache.get p with
  | none => simp [entry, QueueCache.ensureCached, hc]
  | some e =>
    have he : entry r p = e := by simp [entry, QueueCache.ensureCached, hc]
    rw [he] at hleft hlen hcons ⊢
    dsimp only
    split_ifs with hle hpos
    · exact (List.drop_eq_nil_of_le hle).symm
    · rfl
    · have hzero : e.consumedCount = 0 := Nat.eq_zero_of_not_pos hpos
      rw [hleft, ← hcons, hzero, List.drop_zero, hstore]

/-- What a round took from a para and what it left in its queue is what the queue held, and the
paras to visit are again those with messages. -/
theorem processPending_spec (hl : Listed s) (config : HostConfiguration) (f : Weight) (sink : UmpSink) :
    (∀ p, takenFrom p (s.processPendingUpwardMessages config f sink).2.1 ++
        (s.processPendingUpwardMessages config f sink).1.relayDispatchQueues p =
      s.relayDispatchQueues p) ∧
    Listed (s.processPendingUpwardMessages config f sink).1 := by
  have h : Running s (Round.loop config f sink (s.pending + 1) (.start s)) :=
    ((Running.start hl).loop _).1
  refine ⟨fun p => ?_, fun p => ?_⟩
  · rw [show (s.processPendingUpwardMessages config f sink).1.relayDispatchQueues p = _ from h.flush p]
    exact List.prefix_append_drop (h.taken p) |>.symm
  · rw [show (s.processPendingUpwardMessages config f sink).1.relayDispatchQueues p = _ from h.flush p,
      ← List.length_pos_iff, List.length_drop]
    refine (h.visits p).trans ?_
    omega

/-- A round leaves its loop by itself, at the latest in the turn after as many as there are
messages, and what it does is what it has done by then. It ends at a para with messages, or with none
left anywhere. -/
theorem round_ends (hl : Listed s) (config : HostConfiguration) (f : Weight) (sink : UmpSink) :
    (∃ r, Leaves config f sink (messages s + 1) (.start s) r ∧
      s.processPendingUpwardMessages config f sink =
        (QueueCache.flush (r.cursor.flush r.storage) r.cache, r.taken, r.events)) ∧
    (∀ p, takenFrom p (s.processPendingUpwardMessages config f sink).2.1 ++
        (s.processPendingUpwardMessages config f sink).1.relayDispatchQueues p =
      s.relayDispatchQueues p) ∧
    (∀ p, (s.processPendingUpwardMessages config f sink).1.nextDispatchRoundStartWith = some p →
      (s.processPendingUpwardMessages config f sink).1.relayDispatchQueues p ≠ []) ∧
    ((s.processPendingUpwardMessages config f sink).1.nextDispatchRoundStartWith = none →
      ∀ p, (s.processPendingUpwardMessages config f sink).1.relayDispatchQueues p = []) := by
  obtain ⟨hfifo, hlisted⟩ := processPending_spec hl config f sink
  have h : Running s (Round.loop config f sink (s.pending + 1) (.start s)) :=
    ((Running.start hl).loop _).1
  refine ⟨?_, hfifo, fun p hp => ?_, fun hp p => ?_⟩
  · obtain ⟨r, hr⟩ : ∃ r, Leaves config f sink (messages s + 1) (.start s) r :=
      (Running.start hl).exists_leaves hl (by omega)
    have hle : messages s + 1 ≤ s.pending + 1 := Nat.succ_le_succ (Nat.le_add_right ..)
    refine ⟨r, hr, ?_⟩
    rw [Ump.processPendingUpwardMessages, hr.loop_eq hle]
  · exact (hlisted p).mp (mem_of_peek hp)
  · have hnil : (s.processPendingUpwardMessages config f sink).1.needsDispatch.items = [] :=
      (peek_eq_none h.cursor).mp hp
    by_contra hne
    have hmem := (hlisted p).mpr hne
    rw [← SortedVec.mem_items, hnil] at hmem
    cases hmem

/-- Two paras with a message each. -/
def twoQueues : Impl.Relay.Ump :=
  ((Ump.empty.receiveUpwardMessages 7 [[1]]).1.receiveUpwardMessages 9 [[2]]).1

/-- A sink that takes the messages of one para only. -/
def takesSeven : UmpSink := fun _ p _ _ => if p = 7 then .ok 1 else .error (zeroHash, 2)

/-- The round takes the message of the one para and is left at that of the other. -/
theorem round_ends_twoQueues :
    (∃ r, Leaves defaultParachainsHostConfiguration 100 takesSeven 3 (.start twoQueues) r ∧
      r.taken = [.processed 7 [1]]) ∧
    takenFrom 7 (twoQueues.processPendingUpwardMessages defaultParachainsHostConfiguration 100
      takesSeven).2.1 = [[1]] ∧
    takenFrom 7 (twoQueues.processPendingUpwardMessages defaultParachainsHostConfiguration 100
        takesSeven).2.1 ++
      (twoQueues.processPendingUpwardMessages defaultParachainsHostConfiguration 100
        takesSeven).1.relayDispatchQueues 7 = twoQueues.relayDispatchQueues 7 := by
  obtain ⟨⟨r, hr, he⟩, hfifo, -⟩ := round_ends ((Listed.empty.receive 7 [[1]]).receive 9 [[2]])
    defaultParachainsHostConfiguration 100 takesSeven
  refine ⟨⟨r, hr, ?_⟩, by decide +kernel, hfifo 7⟩
  rw [show r.taken = (twoQueues.processPendingUpwardMessages defaultParachainsHostConfiguration 100
    takesSeven).2.1 from (congrArg (fun out => out.2.1) he).symm]
  decide +kernel

/-! ## Progress -/

/-- The sink refuses only messages that need more than they may use. -/
def Honest (sink : UmpSink) : Prop :=
  ∀ n p msg w id required, sink n p msg w = .error (id, required) → w < required

/-- The para that a round starts with has its first message taken, where a message that is not too
heavy for every round fits the first place. -/
theorem first_taken (hl : Listed s) (hsink : Honest sink) (htotal : 0 < config.umpServiceTotalWeight)
    (hmax : config.umpMaxIndividualWeight ≤ config.umpServiceTotalWeight * f / 100) {p : ParaId}
    (hp : (NeedsDispatchCursor.new s).peek = some p) :
    takenFrom p (s.processPendingUpwardMessages config f sink).2.1 ≠ [] := by
  have hstart := Running.start hl
  have hlt := (hstart.visits p).mp (mem_of_peek hp)
  have hm := List.getElem?_eq_getElem hlt
  change takenFrom p (Round.loop config f sink (s.pending + 1) (.start s)).taken ≠ []
  rw [Round.loop]
  rcases turn_cases hp ((hstart.front p).trans hm) with ⟨r', -, -, href⟩ | ⟨r', he, ht⟩
  · rcases href with hw | ⟨id, required, hs, hle⟩
    · exact absurd htotal (UInt64.not_lt.mpr hw)
    · have hlt := hsink _ _ _ _ _ _ hs
      rw [show (Round.start s).maxWeight config f = config.umpServiceTotalWeight * f / 100 from rfl] at hlt
      exact absurd (UInt64.lt_of_lt_of_le hlt hle) (UInt64.not_lt.mpr hmax)
  · rw [he]
    have hloop : r'.taken <+: (Round.loop config f sink s.pending r').taken :=
      ((hstart.took hp hm ht).loop s.pending).2
    obtain ⟨u, hu⟩ := hloop
    have hne : takenFrom p r'.taken ≠ [] := by
      rw [ht.takenFrom_eq, if_pos rfl]
      exact List.append_ne_nil_of_right_ne_nil _ (List.cons_ne_nil _ _)
    dsimp only
    rw [← hu, takenFrom, List.filter_append, List.map_append]
    exact List.append_ne_nil_of_left_ne_nil hne _

theorem messages_eq_zero (hl : Listed s) (h : messages s = 0) (p : ParaId) :
    s.relayDispatchQueues p = [] := by
  by_contra hne
  have hmem := List.mem_map_of_mem (f := fun q => (s.relayDispatchQueues q).length) ((hl p).mpr hne)
  have hle := List.le_sum_of_mem hmem
  have hpos := List.length_pos_iff.mpr hne
  unfold messages at h
  omega

/-- The messages that a round leaves, with those it took. -/
theorem messages_processPending (hl : Listed s) (config : HostConfiguration) (f : Weight)
    (sink : UmpSink) :
    messages (s.processPendingUpwardMessages config f sink).1 +
      (s.processPendingUpwardMessages config f sink).2.1.length = messages s := by
  obtain ⟨hfifo, hlisted⟩ := processPending_spec hl config f sink
  have h : Running s (Round.loop config f sink (s.pending + 1) (.start s)) :=
    ((Running.start hl).loop _).1
  have htaken : ∀ t ∈ (s.processPendingUpwardMessages config f sink).2.1,
      t.para ∈ s.needsDispatch.items := fun t ht => (hl t.para).mpr (h.visited t ht)
  generalize s.processPendingUpwardMessages config f sink = out at hfifo hlisted htaken
  obtain ⟨s', taken, events⟩ := out
  -- a para that the round took off the list has no message left
  have hsame : messages s' =
      (s.needsDispatch.items.map fun p => (s'.relayDispatchQueues p).length).sum := by
    unfold messages
    rw [← List.sum_toFinset _ s'.needsDispatch.nodup, ← List.sum_toFinset _ s.needsDispatch.nodup]
    refine Finset.sum_subset (fun p hp => ?_) fun p _ hp => ?_
    · rw [List.mem_toFinset] at hp ⊢
      refine (hl p).mpr fun hnil => (hlisted p).mp hp ?_
      exact (List.append_eq_nil_iff.mp ((hfifo p).trans hnil)).2
    · rw [List.mem_toFinset] at hp
      rw [not_ne_iff.mp (mt (hlisted p).mpr hp), List.length_nil]
  rw [hsame, ← sum_length_takenFrom s.needsDispatch.nodup htaken, Nat.add_comm, ← List.sum_map_add,
    messages]
  congr 1
  refine List.map_congr_left fun p _ => ?_
  rw [← hfifo p, List.length_append]

/-- One round after the other. -/
def rounds (config : HostConfiguration) (f : Weight) (sinks : List UmpSink) (s : Impl.Relay.Ump) :
    Impl.Relay.Ump :=
  sinks.foldl (fun s sink => (s.processPendingUpwardMessages config f sink).1) s

/-- A round takes a message if there is one. -/
theorem messages_round_le (hl : Listed s) (hsink : Honest sink)
    (htotal : 0 < config.umpServiceTotalWeight)
    (hmax : config.umpMaxIndividualWeight ≤ config.umpServiceTotalWeight * f / 100) :
    messages (s.processPendingUpwardMessages config f sink).1 ≤ messages s - 1 := by
  have hsum := messages_processPending hl config f sink
  cases hp : (NeedsDispatchCursor.new s).peek with
  | none =>
    have hnil := (peek_eq_none (valid_new s)).mp hp
    have hzero : messages s = 0 := by
      rw [messages, show s.needsDispatch.items = [] from hnil, List.map_nil, List.sum_nil]
    omega
  | some p =>
    have htaken := first_taken hl hsink htotal hmax hp
    have hpos : 0 < (s.processPendingUpwardMessages config f sink).2.1.length := by
      refine List.length_pos_iff.mpr fun hnil => htaken ?_
      rw [hnil]
      rfl
    omega

/-- As many rounds as there are messages empty the queues. -/
theorem rounds_drain (hl : Listed s) {sinks : List UmpSink} (hsinks : ∀ sink ∈ sinks, Honest sink)
    (htotal : 0 < config.umpServiceTotalWeight)
    (hmax : config.umpMaxIndividualWeight ≤ config.umpServiceTotalWeight * f / 100)
    (hlen : messages s ≤ sinks.length) (p : ParaId) :
    (rounds config f sinks s).relayDispatchQueues p = [] := by
  induction sinks generalizing s with
  | nil => exact messages_eq_zero hl (Nat.le_zero.mp hlen) p
  | cons sink sinks ih =>
    rw [List.forall_mem_cons] at hsinks
    have hle := messages_round_le hl hsinks.1 htotal hmax
    refine ih (processPending_spec hl config f sink).2 hsinks.2 ?_
    rw [List.length_cons] at hlen
    exact hle.trans (Nat.sub_le_of_le_add hlen)

end SIM.Proof.Ump
