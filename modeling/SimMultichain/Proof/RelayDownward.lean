import SimMultichain.Proof.RelayUpward

/-!
# Downward messages of a running relay chain

The relay chain queues messages to a para, as notifications about channels, by the
sudo call and by its router, and keeps a hash chain over them. A para's candidate says how many
messages from the front it has processed, and they go when it is included.

* `queuedTo`: what a step queues to a para, from its input, its outcome and the state before it.
* `downward_of_run`: while a para stays on the chain, the messages queued to it are appended to its
  queue, and leave it from the front only, as many as its candidates have processed.
-/

namespace SIM.Proof.Relay

open SIM.Impl (ParaId Hash Instruction Xcm MultiLocation)
open SIM.Impl.Relay

variable {host : Host} {canReserve : CanReserve} {s s' : State} {i : Input}

/-! ## What a step queues -/

/-- The notification of a request to open a channel, with the para that it is for. -/
def openNotice (host : Host) (sender recipient : ParaId) (capacity size : UInt32) :
    ParaId × List UInt8 :=
  (recipient, host.encode [.hrmpNewChannelOpenRequest sender size capacity])

def acceptNotice (host : Host) (sender recipient : ParaId) : ParaId × List UInt8 :=
  (sender, host.encode [.hrmpChannelAccepted recipient])

def closeNotice (host : Host) (origin : ParaId) (id : HrmpChannelId) : ParaId × List UInt8 :=
  (if origin = id.sender then id.recipient else id.sender,
    host.encode [.hrmpChannelClosing origin id.sender id.recipient])

/-- What a call of the `hrmp` pallet by a para sends. -/
def noticesOf (host : Host) (origin : ParaId) : HrmpCall → List (ParaId × List UInt8)
  | .hrmpInitOpenChannel recipient capacity size => [openNotice host origin recipient capacity size]
  | .hrmpAcceptOpenChannel sender => [acceptNotice host sender origin]
  | .hrmpCloseChannel channelId => [closeNotice host origin channelId]
  | _ => []

/-- A step returned without an error. -/
def returnedOk : Impl.Relay.Outcome → Bool
  | some (.ok _) => true
  | _ => false

/-- What a step sends to paras. A call that fails sends nothing, but for the notification of a
request which root could not have accepted, where the dispatcher does not undo it. -/
def sentBy (host : Host) (e : Entry State Input Impl.Relay.Outcome) : List (ParaId × List UInt8) :=
  match e.input with
  | .hrmpCall _ (.parachain id) call => if returnedOk e.output then noticesOf host id call else []
  | .sudoCall _ (.sudoQueueDownwardXcm id xcm) =>
    if returnedOk e.output then [(id, host.encode xcm)] else []
  | .sudoCall canReserve (.sudoEstablishHrmpChannel sender recipient capacity size) =>
    if returnedOk e.output then
      [openNotice host sender recipient capacity size, acceptNotice host sender recipient]
    else if !host.transactional &&
        (e.before.initOpenChannel host canReserve sender recipient capacity size).isOk then
      [openNotice host sender recipient capacity size]
    else []
  | .sendXcm wrapVersion dest msg =>
    match State.childParachain dest, wrapVersion dest msg with
    | some id, some versionedXcm => [(id, versionedXcm)]
    | _, _ => []
  | _ => []

/-- What of it is queued to a para: what is not too large. -/
def queued (config : HostConfiguration) (now : BlockNumber) (p : ParaId)
    (sent : List (ParaId × List UInt8)) : List InboundDownwardMessage :=
  (sent.filter fun m => m.1 = p ∧ UInt32.ofNat m.2.length ≤ config.maxDownwardMessageSize).map
    fun m => ⟨now, m.2⟩

def queuedTo (host : Host) (p : ParaId) (e : Entry State Input Impl.Relay.Outcome) :
    List InboundDownwardMessage :=
  queued e.before.config e.before.blockNumber p (sentBy host e)

/-! ## Appending -/

/-- Messages were sent, and appended to the queues and to their chains. -/
structure Appends (host : Host) (s : State) (d : Dmp) (sent : List (ParaId × List UInt8)) : Prop where
  queues (p : ParaId) : d.downwardMessageQueues p =
    s.dmp.downwardMessageQueues p ++ queued s.config s.blockNumber p sent
  heads (p : ParaId) : d.downwardMessageQueueHeads p =
    chainHead (Dmp.mqcLink host) (s.dmp.downwardMessageQueueHeads p)
      (queued s.config s.blockNumber p sent)

theorem Appends.refl (host : Host) (s : State) : Appends host s s.dmp [] :=
  ⟨fun _ => (List.append_nil _).symm, fun _ => rfl⟩

theorem queued_append (config : HostConfiguration) (now : BlockNumber) (p : ParaId)
    (sent sent' : List (ParaId × List UInt8)) :
    queued config now p (sent ++ sent') = queued config now p sent ++ queued config now p sent' := by
  simp [queued]

theorem queued_singleton (config : HostConfiguration) (now : BlockNumber) (p para : ParaId)
    (msg : List UInt8) : queued config now p [(para, msg)] =
      if para = p ∧ UInt32.ofNat msg.length ≤ config.maxDownwardMessageSize then [⟨now, msg⟩]
      else [] := by
  unfold queued
  split_ifs with h <;> simp [h]

theorem Appends.trans {d : Dmp} {sent sent' : List (ParaId × List UInt8)}
    (h : Appends host s s'.dmp sent) (hb : s'.blockNumber = s.blockNumber)
    (hc : s'.config = s.config) (h' : Appends host s' d sent') :
    Appends host s d (sent ++ sent') := by
  refine ⟨fun p => ?_, fun p => ?_⟩
  · rw [h'.queues p, h.queues p, hb, hc, queued_append, List.append_assoc]
  · rw [h'.heads p, h.heads p, hb, hc, queued_append, chainHead_append]

/-- A message is queued, or found too large. -/
theorem appends_queueDownwardMessage (host : Host) (s : State) (para : ParaId) (msg : List UInt8) :
    (∃ d, s.dmp.queueDownwardMessage host s.config s.blockNumber para msg = .ok d ∧
      Appends host s d [(para, msg)]) ∨
    s.dmp.queueDownwardMessage host s.config s.blockNumber para msg =
      .error .exceedsMaxMessageSize ∧ Appends host s s.dmp [(para, msg)] := by
  unfold Dmp.queueDownwardMessage
  split_ifs with hlarge
  · have hnone : ∀ p, queued s.config s.blockNumber p [(para, msg)] = [] := by
      intro p
      rw [queued_singleton, if_neg fun h => not_le.mpr hlarge h.2]
    exact .inr ⟨rfl, fun p => by rw [hnone, List.append_nil], fun p => by rw [hnone]; rfl⟩
  · refine .inl ⟨_, rfl, fun p => ?_, fun p => ?_⟩ <;> rw [queued_singleton] <;>
      by_cases hp : para = p
    · subst hp
      rw [if_pos ⟨rfl, not_lt.mp hlarge⟩]
      exact Function.update_self ..
    · rw [if_neg fun h => hp h.1, List.append_nil]
      exact Function.update_of_ne (Ne.symm hp) ..
    · subst hp
      rw [if_pos ⟨rfl, not_lt.mp hlarge⟩]
      exact Function.update_self ..
    · rw [if_neg fun h => hp h.1]
      exact Function.update_of_ne (Ne.symm hp) ..

theorem appends_notify {s₁ : State} (hb : s₁.blockNumber = s.blockNumber) (hc : s₁.config = s.config)
    (hd : s₁.dmp = s.dmp) (para : ParaId) (message : Instruction) :
    Appends host s (s₁.notify host para message).dmp [(para, host.encode [message])] := by
  unfold State.notify
  rw [hb, hc, hd]
  rcases appends_queueDownwardMessage host s para (host.encode [message]) with
    ⟨d, he, h⟩ | ⟨he, h⟩
  · rw [he]
    exact h
  · rw [he]
    exact hd ▸ h

theorem appends_initOpenChannel {origin recipient : ParaId} {capacity size : UInt32}
    (h : s.initOpenChannel host canReserve origin recipient capacity size = .ok s') :
    Appends host s s'.dmp [openNotice host origin recipient capacity size] := by
  simp only [State.initOpenChannel, ensure_bind, reserve_eq_ok] at h
  obtain ⟨-, -, -, -, -, -, -, -, -, -, h⟩ := h
  cases h
  exact appends_notify (s := s) (by rfl) (by rfl) (by rfl) ..

theorem appends_acceptOpenChannel {origin sender : ParaId}
    (h : s.acceptOpenChannel host canReserve origin sender = .ok s') :
    Appends host s s'.dmp [acceptNotice host sender origin] := by
  unfold State.acceptOpenChannel at h
  cases hr : s.hrmp.openChannelRequests.get ⟨sender, origin⟩ with
  | none => simp only [hr] at h; cases h
  | some request =>
    simp only [hr, ensure_bind, reserve_eq_ok] at h
    obtain ⟨-, -, -, h⟩ := h
    cases h
    exact appends_notify (s := s) (by rfl) (by rfl) (by rfl) ..

theorem appends_closeChannel {origin : ParaId} {id : HrmpChannelId}
    (h : s.closeChannel host origin id = .ok s') :
    Appends host s s'.dmp [closeNotice host origin id] := by
  simp only [State.closeChannel, ensure_bind] at h
  obtain ⟨-, -, -, h⟩ := h
  cases h
  exact appends_notify (s := s) (by rfl) (by rfl) (by rfl) ..

theorem dmp_cancelOpenRequest {origin : ParaId} {id : HrmpChannelId}
    (h : s.cancelOpenRequest origin id = .ok s') : s'.dmp = s.dmp := by
  unfold State.cancelOpenRequest at h
  rw [ensure_bind] at h
  obtain ⟨-, h⟩ := h
  cases hr : s.hrmp.openChannelRequests.get id with
  | none => simp only [hr] at h; cases h
  | some request =>
    simp only [hr, ensure_bind] at h
    obtain ⟨-, h⟩ := h
    cases h
    rfl

/-- What a step sends, it appends. -/
abbrev AppendsSent (host : Host) (s : State) (i : Input) : Prop :=
  Appends host s ((relay host).next s i).dmp (sentBy host ((relay host).entry s i))

/-- A call of a para sends its notifications if it goes through, and nothing otherwise. -/
theorem appends_attempt {r : Except DispatchError State} {events : List Event}
    {sent : List (ParaId × List UInt8)} (h : ∀ s', r = .ok s' → Appends host s s'.dmp sent) :
    Appends host s (s.attempt r events).1.dmp
      (if returnedOk (s.attempt r events).2 then sent else []) := by
  cases r with
  | ok s' => exact h s' rfl
  | error e => exact .refl ..

theorem appends_hrmpCall (origin : Origin) (call : HrmpCall) :
    AppendsSent host s (.hrmpCall canReserve origin call) := by
  cases origin with
  | parachain id =>
    cases call with
    | hrmpInitOpenChannel recipient capacity size =>
      exact appends_attempt fun s' => appends_initOpenChannel
    | hrmpAcceptOpenChannel sender => exact appends_attempt fun s' => appends_acceptOpenChannel
    | hrmpCloseChannel channelId => exact appends_attempt fun s' => appends_closeChannel
    | hrmpCancelOpenRequest channelId openRequests =>
      have hdmp : ((relay host).next s (.hrmpCall canReserve (.parachain id)
          (.hrmpCancelOpenRequest channelId openRequests))).dmp = s.dmp := by
        simp only [Machine.next, relay, State.hrmpCall, State.byParachain]
        split_ifs
        · cases hr : s.cancelOpenRequest id channelId with
          | ok s' => exact dmp_cancelOpenRequest hr
          | error e => rfl
        · rfl
      have hsent : sentBy host ((relay host).entry s (.hrmpCall canReserve (.parachain id)
          (.hrmpCancelOpenRequest channelId openRequests))) = [] := ite_self _
      rw [AppendsSent, hdmp, hsent]
      exact .refl ..
    | _ => exact .refl ..
  | root =>
    cases call with
    | forceProcessHrmpOpen =>
      simp only [AppendsSent, sentBy, Machine.entry, Machine.next, relay, State.hrmpCall, State.byRoot]
      split <;> exact .refl ..
    | _ => exact .refl ..
  | signed => cases call <;> exact .refl ..

theorem except_cases {ε α : Type} (r : Except ε α) : (∃ e, r = .error e) ∨ ∃ a, r = .ok a := by
  cases r with
  | error e => exact .inl ⟨e, rfl⟩
  | ok a => exact .inr ⟨a, rfl⟩

theorem appends_parasChange (r : Except Paras.Error Paras) (error : ParasSudoWrapperError) :
    Appends host s (s.parasChange r error).1.dmp [] := by
  cases r <;> exact .refl ..

theorem appends_sudoCall (call : SudoCall) : AppendsSent host s (.sudoCall canReserve call) := by
  cases call with
  | sudoScheduleParaInitialize id genesis fastTracked => exact appends_parasChange ..
  | sudoScheduleParaCleanup id upgrading => exact appends_parasChange ..
  | sudoScheduleParathreadUpgrade id =>
    simp only [AppendsSent, sentBy, Machine.entry, Machine.next, relay, State.sudoCall]
    split_ifs
    · exact appends_parasChange ..
    · exact .refl ..
  | sudoScheduleParachainDowngrade id =>
    simp only [AppendsSent, sentBy, Machine.entry, Machine.next, relay, State.sudoCall]
    split_ifs
    · exact appends_parasChange ..
    · exact .refl ..
  | sudoQueueDownwardXcm id xcm =>
    simp only [AppendsSent, sentBy, Machine.entry, Machine.next, relay, State.sudoCall]
    by_cases hv : s.paras.isValidPara id = true
    · simp only [if_pos hv]
      rcases appends_queueDownwardMessage host s id (host.encode xcm) with
        ⟨d, he, h⟩ | ⟨he, -⟩
      · simp only [he]
        exact h
      · simp only [he]
        exact .refl ..
    · simp only [if_neg hv]
      exact .refl ..
  | sudoEstablishHrmpChannel sender recipient maxCapacity maxMessageSize =>
    simp only [AppendsSent, sentBy, Machine.entry, Machine.next, relay, State.sudoCall]
    rcases except_cases (s.initOpenChannel host canReserve sender recipient maxCapacity
      maxMessageSize) with ⟨e, h₁⟩ | ⟨s₁, h₁⟩
    · simp only [h₁, Except.isOk, Except.toBool, Bool.and_false]
      exact .refl ..
    · have hfirst := appends_initOpenChannel h₁
      obtain ⟨dmp, hrmp, rfl⟩ := (called_initOpenChannel h₁).rest
      simp only [h₁, Except.isOk, Except.toBool, Bool.and_true]
      rcases except_cases (State.acceptOpenChannel host canReserve { s with dmp, hrmp } recipient
        sender) with ⟨e, h₂⟩ | ⟨s₂, h₂⟩
      · simp only [h₂]
        cases host.transactional with
        | true => exact .refl ..
        | false => exact hfirst
      · simp only [h₂]
        exact hfirst.trans rfl rfl (appends_acceptOpenChannel h₂)

theorem appends_sendXcm (wrapVersion : MultiLocation → Xcm → Option (List UInt8))
    (dest : MultiLocation) (msg : Xcm) : AppendsSent host s (.sendXcm wrapVersion dest msg) := by
  simp only [AppendsSent, sentBy, Machine.entry, Machine.next, relay, State.sendXcm]
  cases State.childParachain dest with
  | none => exact .refl ..
  | some id =>
    cases wrapVersion dest msg with
    | none => exact .refl ..
    | some versionedXcm =>
      rcases appends_queueDownwardMessage host s id versionedXcm with
        ⟨d, he, h⟩ | ⟨he, h⟩
      · simp only [he]
        exact h
      · simp only [he]
        exact h

/-! ## A step -/

/-- What a step does to the queues of downward messages. -/
theorem downward_next (host : Host) (s : State) (i : Input) :
    (∃ para c, Includes s i para c ∧ ((relay host).next s i).dmp =
      s.dmp.pruneDmq para c.commitments.processedDownwardMessages) ∨
    (∃ n, i = .newSession n ∧ ((relay host).next s i).pendingAvailability = .empty ∧
      ((relay host).next s i).dmp =
        s.dmp.performOutgoingParaCleanup (s.paras.applyActionsQueue n).2) ∨
    (∀ para c, ¬ Includes s i para c) ∧ AppendsSent host s i := by
  by_cases hinc : ∃ para c, Includes s i para c
  · obtain ⟨para, c, hc⟩ := hinc
    exact .inl ⟨para, c, hc, by rw [hc.next]; rfl⟩
  · have hnone : ∀ para c, ¬ Includes s i para c := fun para c hc => hinc ⟨para, c, hc⟩
    cases i with
    | hrmpCall canReserve origin call => exact .inr (.inr ⟨hnone, appends_hrmpCall origin call⟩)
    | sudoCall canReserve call => exact .inr (.inr ⟨hnone, appends_sudoCall call⟩)
    | sendXcm wrapVersion dest msg => exact .inr (.inr ⟨hnone, appends_sendXcm wrapVersion dest msg⟩)
    | setConfig updater =>
      refine .inr (.inr ⟨hnone, ?_⟩)
      simp only [AppendsSent, Machine.next, relay]
      split <;> exact .refl ..
    | backed para c =>
      refine .inr (.inr ⟨hnone, ?_⟩)
      simp only [AppendsSent, Machine.next, relay, State.processCandidate]
      split
      · exact .refl ..
      · split_ifs <;> exact .refl ..
    | available para =>
      refine .inr (.inr ⟨hnone, ?_⟩)
      simp only [AppendsSent, Machine.next, relay, State.includeCandidate]
      split
      · exact .refl ..
      · rename_i c hp
        rw [if_neg fun hb => hnone para c ⟨rfl, hp, hb⟩]
        exact .refl ..
    | serviceOverweight sink index weightLimit =>
      refine .inr (.inr ⟨hnone, ?_⟩)
      simp only [AppendsSent, Machine.next, relay]
      split <;> exact .refl ..
    | newSession n =>
      simp only [AppendsSent, Machine.next, relay, State.applyNewSession]
      split
      · exact .inr (.inr ⟨hnone, .refl ..⟩)
      · exact .inr (.inl ⟨n, rfl, rfl, rfl⟩)
    | _ => exact .inr (.inr ⟨hnone, .refl ..⟩)

/-! ## What candidates have processed -/

/-- No candidate has processed more messages than there are. -/
def Processable (s : State) : Prop :=
  ∀ p c, s.pendingAvailability.get p = some c →
    c.commitments.processedDownwardMessages.toNat ≤ (s.dmp.downwardMessageQueues p).length

theorem le_length_of_check {d : Dmp} {p : ParaId} {n : UInt32}
    (h : (d.checkProcessedDownwardMessages p n).isOk = true) :
    n.toNat ≤ (d.downwardMessageQueues p).length := by
  unfold Dmp.checkProcessedDownwardMessages at h
  dsimp only at h
  split_ifs at h with hrule hlt
  · cases h
  · cases h
  · have hle := UInt32.le_iff_toNat_le.mp (UInt32.not_lt.mp hlt)
    have hmin : min (d.downwardMessageQueues p).length (2 ^ 32 - 1) < 2 ^ 32 :=
      (Nat.min_le_right ..).trans_lt (by decide)
    rw [Dmp.dmqLength, UInt32.toNat_ofNat_of_lt' hmin] at hle
    exact hle.trans (Nat.min_le_left ..)

theorem Move.pending (h : Move i s s') (hi : ∀ para c, i ≠ .backed para c) {p : ParaId}
    {c : CandidatePendingAvailability} (hp : s'.pendingAvailability.get p = some c) :
    s.pendingAvailability.get p = some c := by
  cases h with
  | idle s' _ _ hsub _ => exact hsub p c hp
  | backed para c hb _ => exact absurd hb (hi para c)
  | session n hrmp _ _ => cases hp
  | _ => exact hp

theorem pending_next (hn : ∀ para c, ¬ Includes s i para c) (hi : ∀ para c, i ≠ .backed para c)
    {p : ParaId} {c : CandidatePendingAvailability}
    (hp : ((relay host).next s i).pendingAvailability.get p = some c) :
    s.pendingAvailability.get p = some c := by
  have hm : Moves i s ((relay host).next s i) := moves_of_not_includes hn
  generalize (relay host).next s i = s' at hm hp
  cases hm with
  | one hm => exact hm.pending hi hp
  | two _ hm' _ hr =>
    obtain ⟨dmp, hrmp, rfl⟩ := hr
    exact hm'.pending hi hp

/-- A candidate that is backed has processed no more than there is. -/
theorem pending_backed {para p : ParaId} {c : CandidateCommitments} {c' : CandidatePendingAvailability}
    (hp : ((relay host).next s (.backed para c)).pendingAvailability.get p = some c') :
    s.pendingAvailability.get p = some c' ∨
      c'.commitments.processedDownwardMessages.toNat ≤ (s.dmp.downwardMessageQueues p).length := by
  simp only [Machine.next, relay, State.processCandidate] at hp
  split at hp
  · exact .inl hp
  · rename_i hc
    split_ifs at hp with hfree
    · exact .inl hp
    · rcases StorageMap.get_insert_cases hp with ⟨rfl, rfl⟩ | hold
      · unfold State.checkValidationOutputs at hc
        split_ifs at hc with h₁ h₂ h₃ h₄ h₅
        exact .inr (le_length_of_check (by simpa using h₂))
      · exact .inl hold.2

theorem Appends.length_le {d : Dmp} {sent : List (ParaId × List UInt8)} (h : Appends host s d sent)
    (p : ParaId) : (s.dmp.downwardMessageQueues p).length ≤ (d.downwardMessageQueues p).length := by
  rw [h.queues p, List.length_append]
  exact Nat.le_add_right ..

theorem queues_pruneDmq_of_ne {d : Dmp} {para p : ParaId} (h : p ≠ para) (n : UInt32) :
    (d.pruneDmq para n).downwardMessageQueues p = d.downwardMessageQueues p :=
  Function.update_of_ne h ..

theorem processable_next (h : Processable s) (i : Input) : Processable ((relay host).next s i) := by
  intro p c hp
  rcases downward_next host s i with ⟨para, c', hinc, he⟩ | ⟨n, -, hempty, -⟩ | ⟨hnone, happ⟩
  · rw [hinc.next] at hp
    change (s.pendingAvailability.erase para).get p = some c at hp
    rw [StorageMap.get_erase] at hp
    split_ifs at hp with hne
    rw [he, queues_pruneDmq_of_ne hne]
    exact h p c hp
  · rw [hempty] at hp
    cases hp
  · refine le_trans ?_ (happ.length_le p)
    by_cases hback : ∃ para c, i = .backed para c
    · obtain ⟨para, c', rfl⟩ := hback
      rcases pending_backed hp with hold | hle
      · exact h p c hold
      · exact hle
    · exact h p c (pending_next hnone (fun para c' hb => hback ⟨para, c', hb⟩) hp)

theorem processable_of_reachable (h : Reachable host s) : Processable s := by
  induction h with
  | first hg _ =>
    obtain ⟨-, -, hempty, -⟩ := genesis_induction (P := fun _ => True) hg (fun _ _ _ _ => trivial)
      fun _ _ _ _ _ _ => trivial
    refine processable_next (fun p c hp => ?_) _
    rw [hempty] at hp
    cases hp
  | step _ i _ ih => exact processable_next ih i

/-! ## Runs -/

/-- The number of downward messages that a step includes as processed by a para. -/
def processedBy (p : ParaId) (e : Entry State Input Impl.Relay.Outcome) : Nat :=
  match includedBy e with
  | some (para, c) => if para = p then c.processedDownwardMessages.toNat else 0
  | none => 0

theorem processedBy_of_not_includes (h : ∀ para c, ¬ Includes s i para c) (p : ParaId) :
    processedBy p ((relay host).entry s i) = 0 := by
  rw [processedBy, includedBy_of_not_includes h]

/-- The messages `new` were appended to the queue of a para, and `k` left it from the front. -/
structure Advances (host : Host) (p : ParaId) (d d' : Dmp) (new : List InboundDownwardMessage)
    (k : Nat) : Prop where
  le_length : k ≤ (d.downwardMessageQueues p ++ new).length
  queue : d'.downwardMessageQueues p = (d.downwardMessageQueues p ++ new).drop k
  head : d'.downwardMessageQueueHeads p =
    chainHead (Dmp.mqcLink host) (d.downwardMessageQueueHeads p) new

theorem Advances.trans {p : ParaId} {d d' d'' : Dmp} {new new' : List InboundDownwardMessage}
    {k l : Nat} (h : Advances host p d d' new k) (h' : Advances host p d' d'' new' l) :
    Advances host p d d'' (new ++ new') (k + l) := by
  have hdrop : (d.downwardMessageQueues p ++ new).drop k ++ new' =
      (d.downwardMessageQueues p ++ (new ++ new')).drop k := by
    rw [← List.append_assoc, List.drop_append_of_le_length h.le_length]
  have hle := h.le_length
  have hle' := h'.le_length
  rw [h.queue, hdrop, List.length_drop] at hle'
  refine ⟨?_, ?_, ?_⟩
  · rw [List.length_append] at hle hle' ⊢
    rw [List.length_append] at hle' ⊢
    omega
  · rw [h'.queue, h.queue, hdrop, List.drop_drop]
  · rw [h'.head, h.head, chainHead_append]

theorem cleanup_of_not_mem {outgoing : List ParaId} {p : ParaId} (h : p ∉ outgoing) (d : Dmp) :
    (d.performOutgoingParaCleanup outgoing).downwardMessageQueues p = d.downwardMessageQueues p ∧
      (d.performOutgoingParaCleanup outgoing).downwardMessageQueueHeads p =
        d.downwardMessageQueueHeads p := by
  unfold Dmp.performOutgoingParaCleanup
  induction outgoing generalizing d with
  | nil => exact ⟨rfl, rfl⟩
  | cons q outgoing ih =>
    rw [List.mem_cons, not_or] at h
    rw [List.foldl_cons, (ih h.2 _).1, (ih h.2 _).2]
    exact ⟨Function.update_of_ne h.1 .., Function.update_of_ne h.1 ..⟩

/-- A candidate that is included has processed no more than there is. -/
theorem processedBy_le (h : Processable s) (p : ParaId) :
    processedBy p ((relay host).entry s i) ≤ (s.dmp.downwardMessageQueues p).length := by
  rcases step_cases host s i with ⟨para, c, hinc⟩ | ⟨hnone, -⟩
  · rw [processedBy, includedBy_of_includes hinc]
    dsimp only
    split_ifs with hp
    · exact hp ▸ h para c hinc.pending
    · exact Nat.zero_le _
  · rw [processedBy_of_not_includes hnone]
    exact Nat.zero_le _

/-- Only calls and the router send messages. -/
theorem queuedTo_of_includes {para : ParaId} {c : CandidatePendingAvailability}
    (h : Includes s i para c) (p : ParaId) : queuedTo host p ((relay host).entry s i) = [] := by
  cases h.input
  rfl

theorem downward_step (h : Processable s) {p : ParaId} (hk : KeepsPara p ((relay host).entry s i)) :
    Advances host p s.dmp ((relay host).next s i).dmp (queuedTo host p ((relay host).entry s i))
      (processedBy p ((relay host).entry s i)) := by
  have hle : processedBy p ((relay host).entry s i) ≤
      (s.dmp.downwardMessageQueues p ++ queuedTo host p ((relay host).entry s i)).length :=
    (processedBy_le h p).trans (by rw [List.length_append]; exact Nat.le_add_right ..)
  rcases downward_next host s i with ⟨para, c, hinc, he⟩ | ⟨n, rfl, -, he⟩ | ⟨hnone, happ⟩
  · refine ⟨hle, ?_, ?_⟩
    · rw [queuedTo_of_includes hinc, List.append_nil, processedBy, includedBy_of_includes hinc, he]
      dsimp only
      split_ifs with hp
      · -- there is nothing to clear: the candidate was checked when it was backed
        subst hp
        exact (Function.update_self ..).trans (if_neg (not_lt.mpr (h para c hinc.pending)))
      · rw [List.drop_zero]
        exact queues_pruneDmq_of_ne (Ne.symm hp) _
    · rw [queuedTo_of_includes hinc, he]
      rfl
  · have hnone : ∀ para c, ¬ Includes s (.newSession n) para c := by
      intro para c hc
      cases hc.input
    obtain ⟨hq, hh⟩ := cleanup_of_not_mem (hk n rfl) s.dmp
    have hnil : queuedTo host p ((relay host).entry s (.newSession n)) = [] := rfl
    refine ⟨hle, ?_, ?_⟩
    · rw [he, hnil, processedBy_of_not_includes hnone, List.append_nil, List.drop_zero]
      exact hq
    · rw [he, hnil]
      exact hh
  · refine ⟨hle, ?_, happ.heads p⟩
    rw [processedBy_of_not_includes hnone, List.drop_zero]
    exact happ.queues p

theorem advances_run (h : Reachable host s) {p : ParaId} {is : List Input}
    (hk : ∀ e ∈ (relay host).trace s is, KeepsPara p e) :
    Advances host p s.dmp ((relay host).run s is).dmp
      (((relay host).trace s is).flatMap (queuedTo host p))
      (((relay host).trace s is).map (processedBy p)).sum := by
  induction is generalizing s with
  | nil => exact ⟨Nat.zero_le _, (List.append_nil _).symm, rfl⟩
  | cons i is ih =>
    rw [Machine.trace_cons, List.forall_mem_cons] at hk
    have hstep := downward_step (processable_of_reachable h) hk.1
    have hrest := ih (h.step i trivial) hk.2
    rw [Machine.trace_cons, Machine.run_cons, List.map_cons, List.sum_cons, List.flatMap_cons]
    exact hstep.trans hrest

theorem processedBy_le_of_mem (h : Reachable host s) (p : ParaId) {is : List Input}
    {e : Entry State Input Impl.Relay.Outcome} (he : e ∈ (relay host).trace s is) :
    processedBy p e ≤ (e.before.dmp.downwardMessageQueues p).length := by
  induction is generalizing s with
  | nil => cases he
  | cons i is ih =>
    rw [Machine.trace_cons, List.mem_cons] at he
    rcases he with rfl | he
    · exact processedBy_le (processable_of_reachable h) p
    · exact ih (h.step i trivial) he

/-- While a para stays on the chain, its queue of downward messages is what it was with the messages
that the steps queued to it, without as many from the front as the para's candidates have
processed, and the head of the queue's chain is that of these messages. No candidate has processed
more than was in the queue when it was included. -/
theorem downward_of_run (h : Reachable host s) {p : ParaId} {is : List Input}
    (hk : ∀ e ∈ (relay host).trace s is, KeepsPara p e) :
    (∀ e ∈ (relay host).trace s is,
        processedBy p e ≤ (e.before.dmp.downwardMessageQueues p).length) ∧
      ((relay host).run s is).dmp.downwardMessageQueues p =
        (s.dmp.downwardMessageQueues p ++ ((relay host).trace s is).flatMap (queuedTo host p)).drop
          (((relay host).trace s is).map (processedBy p)).sum ∧
      ((relay host).run s is).dmp.downwardMessageQueueHeads p =
        chainHead (Dmp.mqcLink host) (s.dmp.downwardMessageQueueHeads p)
          (((relay host).trace s is).flatMap (queuedTo host p)) :=
  ⟨fun _ he => processedBy_le_of_mem h p he, (advances_run h hk).queue, (advances_run h hk).head⟩

/-- The first para processes the notification about its channel, and is sent two messages: one by the
router, and the notification that its channel closes. -/
def processedAndSent : List Input :=
  [.backed 2000 ⟨[], [], [], 1, 0⟩, .newBlock, .available 2000,
    .sendXcm (fun _ _ => some [9]) ⟨0, [.parachain 2000], by decide⟩ [],
    .hrmpCall (fun _ _ => true) (.parachain 2001) (.hrmpCloseChannel ⟨2000, 2001⟩)]

theorem downward_of_run_twoParas :
    (((relay plainHost).trace twoParasFirst processedAndSent).flatMap (queuedTo plainHost 2000) =
        [⟨2, [9]⟩, ⟨2, []⟩] ∧
      ((relay plainHost).trace twoParasFirst processedAndSent).map (processedBy 2000) =
        [0, 0, 1, 0, 0]) ∧
    ((relay plainHost).run twoParasFirst processedAndSent).dmp.downwardMessageQueues 2000 =
      [⟨2, [9]⟩, ⟨2, []⟩] := by
  have hqueued : ((relay plainHost).trace twoParasFirst processedAndSent).flatMap
      (queuedTo plainHost 2000) = [⟨2, [9]⟩, ⟨2, []⟩] := by decide +kernel
  have hprocessed : ((relay plainHost).trace twoParasFirst processedAndSent).map
      (processedBy 2000) = [0, 0, 1, 0, 0] := by decide +kernel
  have hbefore : twoParasFirst.dmp.downwardMessageQueues 2000 = [⟨0, []⟩] := by decide +kernel
  refine ⟨⟨hqueued, hprocessed⟩, ?_⟩
  rw [(downward_of_run reachable_twoParasFirst (keepsPara_of_not_mem ?_)).2.1, hqueued, hprocessed,
    hbefore]
  · rfl
  · simp [processedAndSent]

end SIM.Proof.Relay
