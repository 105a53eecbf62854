import SimMultichain.Proof.Hrmp
import SimMultichain.Proof.RelaySteps

/-!
# HRMP along the runs of the relay chain

Every step of the relay chain is a list of operations on the lines that the storage of HRMP holds
(`Proof.Hrmp`), each allowed where it comes. `Invariant` is what all states of a run have in common:
the storage holds sound lines, confirmed requests carry the deposit of the active
configuration, and the candidates that wait for inclusion are still good for the block in which they
take effect.
-/

namespace SIM.Proof.Hrmp

open SIM.Impl (ParaId Hash)
open SIM.Impl.Relay
open SIM.Proof.Relay
open SIM.Spec (Lines LineOp)
open SIM.Spec.Lines (Allowed AllowedAll Continues)

/-! ## Requests -/

section Requests

variable {host : Host} {now : BlockNumber} {s : Impl.Relay.Hrmp} {a : HrmpLines}

/-- The terms of a request. -/
def proposed (config : HostConfiguration) (capacity size : UInt32) : Terms where
  maxMessageSize := size
  maxCapacity := capacity
  maxTotalSize := config.hrmpChannelMaxTotalSize
  senderDeposit := config.hrmpSenderDeposit
  recipientDeposit := 0

/-- The recipient adds its deposit. -/
def withDeposit (config : HostConfiguration) (t : Terms) : Terms :=
  { t with recipientDeposit := config.hrmpRecipientDeposit }

theorem Represents.line_eq_none (h : Represents host now s a) {id : HrmpChannelId}
    (hc : s.channels.get id = none) : a.line id = none := by
  rw [h.channels] at hc
  exact Option.map_eq_none_iff.mp hc

theorem Represents.requested_eq_none (h : Represents host now s a) {id : HrmpChannelId}
    (hr : s.openChannelRequests.get id = none) : a.requested id = none := by
  rw [h.requests] at hr
  exact Option.map_eq_none_iff.mp hr

theorem Represents.requested_eq_some (h : Represents host now s a) {id : HrmpChannelId}
    {request : HrmpOpenChannelRequest} (hr : s.openChannelRequests.get id = some request) :
    ∃ r, a.requested id = some r ∧ request = toRequest r := by
  rw [h.requests] at hr
  obtain ⟨r, hr', rfl⟩ := Option.map_eq_some_iff.mp hr
  exact ⟨r, hr', rfl⟩

theorem Represents.request (h : Represents host now s a) {id : HrmpChannelId}
    (hr : a.requested id = none) (config : HostConfiguration) (capacity size : UInt32) :
    Represents host now (requestStored config id capacity size s)
      (a.apply names (.request id (proposed config capacity size))) :=
  { h with
    requests := fun id' => by
      by_cases he : id' = id
      · rw [he, Lines.requested_request]; exact StorageMap.get_insert_self
      · rw [Lines.requested_request_of_ne he, ← h.requests]; exact StorageMap.get_insert_of_ne he
    requestsNodup := by
      refine List.nodup_append.mpr ⟨h.requestsNodup, List.nodup_singleton _, ?_⟩
      rintro id' hid' _ hid rfl
      rw [List.mem_singleton.mp hid, h.mem_requests, hr] at hid'
      cases hid'
    mem_requests := fun id' => by
      change id' ∈ s.openChannelRequestsList ++ [id] ↔ _
      rw [List.mem_append, List.mem_singleton, h.mem_requests]
      by_cases he : id' = id
      · simp [he]
      · rw [Lines.requested_request_of_ne he, or_iff_left he] }

theorem Represents.accept (h : Represents host now s a) {id : HrmpChannelId} {t : Terms}
    (hr : a.requested id = some (t, false)) (config : HostConfiguration) :
    Represents host now (acceptStored config id (toRequest (t, false)) s)
      (a.apply names (.agree id (withDeposit config))) :=
  { h with
    requests := fun id' => by
      by_cases he : id' = id
      · rw [he, Lines.requested_agree, hr]; exact StorageMap.get_insert_self
      · rw [Lines.requested_agree_of_ne he, ← h.requests]; exact StorageMap.get_insert_of_ne he
    mem_requests := fun id' => by
      refine (h.mem_requests id').trans ?_
      by_cases he : id' = id
      · rw [he, Lines.requested_agree, Option.isSome_map]
      · rw [Lines.requested_agree_of_ne he] }

theorem Represents.cancel (h : Represents host now s a) {id : HrmpChannelId} {r : Terms × Bool}
    (hr : a.requested id = some r) :
    Represents host now (cancelStored id (toRequest r) s) (a.apply names (.withdraw id)) := by
  have hm : id ∈ s.openChannelRequestsList := (h.mem_requests id).mpr (by rw [hr]; rfl)
  have hperm := swapRemove_perm (List.getElem?_idxOf hm)
  have hnodup := hperm.nodup_iff.mpr h.requestsNodup
  rw [List.nodup_cons] at hnodup
  have e : (cancelStored id (toRequest r) s).openChannelRequestsList =
      swapRemove s.openChannelRequestsList (s.openChannelRequestsList.idxOf id) := if_pos hm
  exact { h with
    requests := fun id' => by
      by_cases he : id' = id
      · rw [he, Lines.requested_withdraw]; exact StorageMap.get_erase_self
      · rw [Lines.requested_withdraw_of_ne he, ← h.requests]; exact StorageMap.get_erase_of_ne he
    requestsNodup := by rw [e]; exact hnodup.2
    mem_requests := fun id' => by
      rw [e]
      by_cases he : id' = id
      · rw [he, Lines.requested_withdraw]; simp [hnodup.1]
      · rw [Lines.requested_withdraw_of_ne he, ← h.mem_requests, ← hperm.mem_iff, List.mem_cons,
          or_iff_right he] }

theorem Represents.askClose (h : Represents host now s a) {id : HrmpChannelId}
    (hn : s.closeChannelRequests.get id = none) :
    Represents host now (closeStored id s) (a.apply names (.askClose id)) :=
  { h with
    closes := fun id' => by
      change ((s.closeChannelRequests.insert id ()).get id').isSome ↔ id' ∈ insert id a.closing
      rw [Set.mem_insert_iff, ← h.closes, StorageMap.get_insert]
      split_ifs with he <;> simp [he]
    closesNodup := by
      refine List.nodup_append.mpr ⟨h.closesNodup, List.nodup_singleton _, ?_⟩
      rintro id' hid' _ hid rfl
      rw [List.mem_singleton.mp hid, h.mem_closes, ← h.closes, hn] at hid'
      cases hid'
    mem_closes := fun id' => by
      change id' ∈ s.closeChannelRequestsList ++ [id] ↔ id' ∈ insert id a.closing
      rw [List.mem_append, List.mem_singleton, h.mem_closes, Set.mem_insert_iff, or_comm] }

end Requests

/-! ## Sessions -/

section Session

variable {host : Host} {now : BlockNumber} {s : Impl.Relay.Hrmp} {a : HrmpLines}

/-- Confirmed requests carry the recipient's deposit of a configuration. -/
def Deposited (config : HostConfiguration) (a : HrmpLines) : Prop :=
  ∀ id t, a.requested id = some (t, true) → t.recipientDeposit = config.hrmpRecipientDeposit

/-- The operations of a session change that lets go of `outgoing`. -/
def sessionOps (valid : ParaId → Bool) (outgoing : List ParaId) : List HrmpOp :=
  .forget {p | p ∈ outgoing} :: (outgoing.map .cut ++ [.connect {p | valid p = true}, .closeAsked])

theorem allowedAll_session (now : BlockNumber) (a : HrmpLines) (valid : ParaId → Bool)
    (outgoing : List ParaId) : AllowedAll names now a (sessionOps valid outgoing) := by
  have hcuts : ∀ (l : List ParaId) (a : HrmpLines),
      AllowedAll names now a (l.map .cut ++ [.connect {p | valid p = true}, .closeAsked]) := by
    intro l
    induction l with
    | nil => exact fun _ => ⟨trivial, trivial, trivial⟩
    | cons p l ih => exact fun a => ⟨trivial, ih _⟩
  exact ⟨trivial, hcuts _ _⟩

theorem not_request_session {valid : ParaId → Bool} {outgoing : List ParaId} :
    ∀ op ∈ sessionOps valid outgoing, ∀ (x : HrmpChannelId) (t : Terms), op ≠ .request x t := by
  intro op hop x t he
  subst he
  simp [sessionOps] at hop

theorem Represents.cuts (h : Represents host now s a) (outgoing : List ParaId) :
    Represents host now (outgoing.foldl (fun s p => s.cleanHrmpAfterOutgoing p) s)
      (a.applyAll names (outgoing.map .cut)) := by
  induction outgoing generalizing s a with
  | nil => exact h
  | cons p outgoing ih => exact ih (h.clean p)

/-- A session change never stops the runtime. -/
theorem Represents.newSession (h : Represents host now s a) (hs : Lines.Sound names now a)
    {config : HostConfiguration} (hd : Deposited config a) (valid : ParaId → Bool)
    (outgoing : List ParaId) :
    ∃ s', s.initializerOnNewSession valid config outgoing = some s' ∧
      Represents host now s' (a.applyAll names (sessionOps valid outgoing)) := by
  set a₁ := a.apply names (.forget {p | p ∈ outgoing}) with ha₁
  set a₂ := a₁.applyAll names (outgoing.map .cut) with ha₂
  have h₂ : Represents host now (s.performOutgoingParaCleanup config outgoing) a₂ :=
    (h.forget config outgoing).cuts outgoing
  have hallowed : ∀ (l : List ParaId) (a : HrmpLines), AllowedAll names now a (l.map .cut) := by
    intro l
    induction l with
    | nil => exact fun _ => trivial
    | cons p l ih => exact fun a => ⟨trivial, ih _⟩
  have hs₂ : Lines.Sound names now a₂ := (hs.forgetIn _).applyAll (hallowed outgoing a₁)
  have hreq : ∀ (l : List ParaId) (a : HrmpLines),
      (a.applyAll names (l.map .cut)).requested = a.requested := by
    intro l
    induction l with
    | nil => exact fun _ => rfl
    | cons p l ih => exact fun a => (ih _).trans rfl
  have hd₂ : Deposited config a₂ := by
    intro id t hr
    rw [ha₂, hreq] at hr
    simp only [ha₁, Lines.apply, Lines.forgetIn] at hr
    split_ifs at hr
    exact hd id t hr
  obtain ⟨s₃, e, h₃⟩ := h₂.processOpen hs₂ valid hd₂
  refine ⟨s₃.processHrmpCloseChannelRequests, ?_, ?_⟩
  · rw [Hrmp.initializerOnNewSession, e]; rfl
  · have e' : a.applyAll names (sessionOps valid outgoing) =
        (a₂.apply names (.connect {p | valid p = true})).apply names .closeAsked := by
      simp only [sessionOps, Lines.applyAll, List.foldl_cons, List.foldl_append, List.foldl_nil]
      rfl
    rw [e']
    exact h₃.processClose

/-- After a session change no request is confirmed. -/
theorem deposited_session (config : HostConfiguration) (a : HrmpLines) (valid : ParaId → Bool)
    (outgoing : List ParaId) : Deposited config (a.applyAll names (sessionOps valid outgoing)) := by
  intro id t hr
  simp only [sessionOps, Lines.applyAll, List.foldl_cons, List.foldl_append, List.foldl_nil] at hr
  exact absurd hr (Lines.connectIn_univ_requested names {p | valid p = true} id t)

end Session

end SIM.Proof.Hrmp

namespace SIM.Proof.Relay

open SIM.Impl (ParaId Hash)
open SIM.Impl.Relay
open SIM.Proof.Hrmp
open SIM.Spec (Lines LineOp)
open SIM.Spec.Lines (Allowed AllowedAll Continues)

/-! ## What moves leave alone -/

/-- Watermarks and digests change with candidates only. -/
structure SameMarks (s s' : Hrmp) : Prop where
  watermarks : s'.watermarks = s.watermarks
  digests : s'.channelDigests = s.channelDigests

theorem SameMarks.trans {s s' s'' : Hrmp} (h : SameMarks s s') (h' : SameMarks s' s'') :
    SameMarks s s'' := ⟨h'.watermarks.trans h.watermarks, h'.digests.trans h.digests⟩

theorem sameMarks_clean (s : Hrmp) (p : ParaId) : SameMarks s (s.cleanHrmpAfterOutgoing p) :=
  have h := closes_foldl _ _
  ⟨h.watermarks, h.digests⟩

theorem sameMarks_processClose (s : Hrmp) : SameMarks s s.processHrmpCloseChannelRequests := by
  have e := foldl_closeRequests s.closeChannelRequestsList [] s s.closeChannelRequests
  have h := closes_foldl s.closeChannelRequestsList s
  rw [Hrmp.processHrmpCloseChannelRequests, e]
  exact ⟨h.watermarks, h.digests⟩

theorem sameMarks_openLoop {valid : ParaId → Bool} {config : HostConfiguration} {idx : Nat}
    {reqs reqs' : List HrmpChannelId} {s s' : Hrmp}
    (h : Hrmp.processOpenLoop valid config idx reqs s = some (reqs', s')) : SameMarks s s' := by
  induction idx generalizing reqs s with
  | zero => cases h; exact ⟨rfl, rfl⟩
  | succ idx ih =>
    simp only [Hrmp.processOpenLoop] at h
    split at h
    · cases h
    · split at h
      · cases h
      · split_ifs at h
        · refine SameMarks.trans ?_ (ih h)
          rw [enactRequest_eq]
          exact ⟨rfl, rfl⟩
        · exact ih h

theorem sameMarks_processOpen {valid : ParaId → Bool} {config : HostConfiguration} {s s' : Hrmp}
    (h : s.processHrmpOpenChannelRequests valid config = some s') : SameMarks s s' := by
  obtain ⟨⟨reqs, s₁⟩, h₁, rfl⟩ := Option.map_eq_some_iff.mp h
  exact ⟨(sameMarks_openLoop h₁).watermarks, (sameMarks_openLoop h₁).digests⟩

theorem sameMarks_newSession {valid : ParaId → Bool} {config : HostConfiguration}
    {outgoing : List ParaId} {s s' : Hrmp}
    (h : s.initializerOnNewSession valid config outgoing = some s') : SameMarks s s' := by
  obtain ⟨s₁, h₁, rfl⟩ := Option.map_eq_some_iff.mp h
  have hcuts : ∀ (l : List ParaId) (s : Hrmp),
      SameMarks s (l.foldl (fun s p => s.cleanHrmpAfterOutgoing p) s) := by
    intro l
    induction l with
    | nil => exact fun _ => ⟨rfl, rfl⟩
    | cons p l ih => exact fun s => (sameMarks_clean s p).trans (ih _)
  have hforget : SameMarks s (s.cleanOpenChannelRequests config outgoing) := by
    obtain ⟨r, n, e⟩ := foldl_cleanRequest config outgoing
      (s.openChannelRequestsList.filter fun id => outgoing.any id.isParticipant)
      { s with openChannelRequestsList :=
          s.openChannelRequestsList.filter fun id => !outgoing.any id.isParticipant }
    rw [Hrmp.cleanOpenChannelRequests, e]
    exact ⟨rfl, rfl⟩
  exact ((hforget.trans (hcuts outgoing _)).trans (sameMarks_processOpen h₁)).trans
    (sameMarks_processClose s₁)

theorem Move.sameMarks {s s' : State} {i : Input} (h : Move i s s') : SameMarks s.hrmp s'.hrmp := by
  cases h with
  | idle s' h hf hp => rw [h]; exact ⟨rfl, rfl⟩
  | clean para => exact sameMarks_clean s.hrmp para
  | processOpen hrmp _ h => exact sameMarks_processOpen h
  | processClose => exact sameMarks_processClose s.hrmp
  | session n hrmp _ h => exact sameMarks_newSession h
  | _ => exact ⟨rfl, rfl⟩

/-! ## Candidates that wait -/

/-- What is left of a check after one of its conditions. -/
theorem isOk_ite_throw {ε α β : Type} {c : Prop} [Decidable c] {e : ε} {f : α → Except ε β}
    {x : Except ε β} : (if c then throw e >>= f else x).isOk = true ↔ ¬ c ∧ x.isOk = true := by
  split_ifs with h
  · exact ⟨(by cases ·), fun hx => absurd h hx.1⟩
  · exact ⟨fun hx => ⟨h, hx⟩, fun hx => hx.2⟩

/-- A watermark that was accepted is later than the one before and not ahead of the parent block,
and it is the parent block or one in which messages were sent. -/
theorem checkHrmpWatermark_isOk {s : Hrmp} {p : ParaId} {parent w : BlockNumber}
    (h : (s.checkHrmpWatermark p parent w).isOk = true) :
    (∀ last, s.watermarks.get p = some last → last < w) ∧ w ≤ parent ∧
      (w = parent ∨ (binarySearchByKey (s.channelDigests p) Prod.fst w).isOk = true) := by
  unfold Hrmp.checkHrmpWatermark at h
  have hrest : ∀ {b : Bool}, (if w = parent then pure () else
      if (!b) = true then throw (.landsOnBlockWithNoMessages w) else pure () :
        Except Hrmp.HrmpWatermarkAcceptanceErr Unit).isOk = true → w = parent ∨ b = true := by
    intro b hb
    split_ifs at hb with h₁ h₂
    · exact .inl h₁
    · cases hb
    · exact .inr (by simpa using h₂)
  cases hl : s.watermarks.get p with
  | none =>
    simp only [hl, isOk_ite_throw] at h
    exact ⟨by simp, not_lt.mp h.1, hrest h.2⟩
  | some last =>
    simp only [hl, isOk_ite_throw] at h
    exact ⟨by simpa using h.1, not_lt.mp h.2.1, hrest h.2.2⟩

/-- Accepted messages go to different recipients. -/
theorem checkOutboundLoop_isOk {s : Hrmp} {sender : ParaId} {idx : Nat} {last : Option ParaId}
    {msgs : List OutboundHrmpMessage} (h : (s.checkOutboundLoop sender idx last msgs).isOk = true) :
    (∀ r, last = some r → ∀ m ∈ msgs, r < m.recipient) ∧
      (msgs.map OutboundHrmpMessage.recipient).Pairwise (· < ·) := by
  induction msgs generalizing idx last with
  | nil => simp
  | cons m msgs ih =>
    simp only [Hrmp.checkOutboundLoop] at h
    split_ifs at h with hl
    · cases h
    · split at h
      · cases h
      · split_ifs at h
        · cases h
        · cases h
        · cases h
        · obtain ⟨h₁, h₂⟩ := ih h
          have hm : ∀ r, last = some r → r < m.recipient := by
            rintro r rfl
            simpa using hl
          refine ⟨fun r hr m' hm' => ?_, ?_⟩
          · rcases List.mem_cons.mp hm' with rfl | hm'
            · exact hm r hr
            · exact (hm r hr).trans (h₁ _ rfl m' hm')
          · rw [List.map_cons, List.pairwise_cons]
            refine ⟨fun r hr => ?_, h₂⟩
            obtain ⟨m', hm', rfl⟩ := List.mem_map.mp hr
            exact h₁ _ rfl m' hm'

theorem checkOutboundHrmp_isOk {s : Hrmp} {config : HostConfiguration} {sender : ParaId}
    {msgs : List OutboundHrmpMessage} (h : (s.checkOutboundHrmp config sender msgs).isOk = true) :
    (msgs.map OutboundHrmpMessage.recipient).Pairwise (· < ·) := by
  unfold Hrmp.checkOutboundHrmp at h
  split_ifs at h
  · cases h
  · exact (checkOutboundLoop_isOk h).2

/-- The candidates that wait for inclusion are good for a later block: nothing was sent by their
paras in this block, and their watermarks are still later than those of their paras. -/
structure Waiting (s : State) : Prop where
  block_pos : 0 < s.blockNumber
  backed_le {p c} : s.pendingAvailability.get p = some c → c.backedInNumber ≤ s.blockNumber
  watermark_lt {p c} : s.pendingAvailability.get p = some c →
    c.commitments.hrmpWatermark < c.backedInNumber
  lt_watermark {p c w} : s.pendingAvailability.get p = some c → s.hrmp.watermarks.get p = some w →
    w < c.commitments.hrmpWatermark
  recipients {p c} : s.pendingAvailability.get p = some c →
    (c.commitments.horizontalMessages.map OutboundHrmpMessage.recipient).Nodup
  silent {p c} : s.pendingAvailability.get p = some c → c.backedInNumber < s.blockNumber →
    ∀ r, Silent s.blockNumber s.hrmp ⟨p, r⟩

variable {host : Host} {s s' : State} {a : HrmpLines} {i : Input}

theorem Waiting.of_fewer (h : Waiting s) (hb : s'.blockNumber = s.blockNumber)
    (hm : SameMarks s.hrmp s'.hrmp)
    (hp : ∀ p c, s'.pendingAvailability.get p = some c → s.pendingAvailability.get p = some c) :
    Waiting s' where
  block_pos := hb ▸ h.block_pos
  backed_le hc := hb ▸ h.backed_le (hp _ _ hc)
  watermark_lt hc := h.watermark_lt (hp _ _ hc)
  lt_watermark hc hw := h.lt_watermark (hp _ _ hc) (hm.watermarks ▸ hw)
  recipients hc := h.recipients (hp _ _ hc)
  silent hc hlt r := by
    rw [hb] at hlt ⊢
    intro e he
    exact h.silent (hp _ _ hc) hlt r e (by rwa [hm.digests] at he)

theorem Waiting.move (h : Waiting s) (hm : Move i s s')
    (hd : ∀ {p e}, e ∈ s.hrmp.channelDigests p → e.1 ≤ s.blockNumber) : Waiting s' := by
  have hmarks := hm.sameMarks
  cases hm with
  | idle s' _ hf hp => exact h.of_fewer hf.blockNumber hmarks hp
  | newBlock _ =>
    exact { h with
      block_pos := Nat.succ_pos _
      backed_le := fun hc => (h.backed_le hc).trans (Nat.le_succ _)
      silent := fun hc _ r e he hn => absurd hn (Nat.ne_of_lt (Nat.lt_succ_of_le (hd he))) }
  | backed para c _ hb =>
    obtain ⟨hw, hle, -⟩ := checkHrmpWatermark_isOk hb.watermark
    have hpos := h.block_pos
    have hget : ∀ p c', (s.pendingAvailability.insert para
        ⟨c, s.blockNumber - 1, s.blockNumber⟩).get p = some c' →
          (p = para ∧ c' = ⟨c, s.blockNumber - 1, s.blockNumber⟩) ∨
            s.pendingAvailability.get p = some c' := by
      intro p c' hc
      rcases StorageMap.get_insert_cases hc with ⟨rfl, rfl⟩ | ⟨-, hc⟩
      · exact .inl ⟨rfl, rfl⟩
      · exact .inr hc
    refine ⟨hpos, fun {p c'} hc => ?_, fun {p c'} hc => ?_, fun {p c' w} hc hw' => ?_,
      fun {p c'} hc => ?_, fun {p c'} hc hlt r => ?_⟩ <;> rcases hget p c' hc with ⟨rfl, rfl⟩ | hc
    · exact le_rfl
    · exact h.backed_le hc
    · exact (Nat.lt_of_le_of_lt hle (Nat.sub_lt hpos Nat.one_pos))
    · exact h.watermark_lt hc
    · exact hw w hw'
    · exact h.lt_watermark hc hw'
    · exact (checkOutboundHrmp_isOk hb.outbound).imp ne_of_lt
    · exact h.recipients hc
    · exact absurd hlt (lt_irrefl _)
    · exact h.silent hc hlt r
  | session n hrmp _ hs => exact h.of_fewer rfl hmarks fun p c hc => by cases hc
  | _ => exact h.of_fewer rfl hmarks fun _ _ hc => hc

theorem Waiting.included (h : Waiting s) {para : ParaId} {c : CandidateCommitments} :
    Waiting (includedState host s para c) := by
  obtain ⟨_, _, e, -⟩ := pruneHrmp_eq para c.hrmpWatermark s.hrmp
  obtain ⟨_, _, _, e'⟩ := queueOutboundHrmp_eq host s.blockNumber para c.horizontalMessages
    (s.hrmp.pruneHrmp para c.hrmpWatermark)
  have hw : (includedState host s para c).hrmp.watermarks =
      s.hrmp.watermarks.insert para c.hrmpWatermark := by
    refine (congrArg Hrmp.watermarks e').trans ?_
    rw [e]
  have hp : ∀ {p c'}, (includedState host s para c).pendingAvailability.get p = some c' →
      p ≠ para ∧ s.pendingAvailability.get p = some c' := by
    intro p c' hc
    change (s.pendingAvailability.erase para).get p = some c' at hc
    rw [StorageMap.get_erase] at hc
    split_ifs at hc with hne
    exact ⟨hne, hc⟩
  exact {
    block_pos := h.block_pos
    backed_le := fun hc => h.backed_le (hp hc).2
    watermark_lt := fun hc => h.watermark_lt (hp hc).2
    lt_watermark := fun hc hw' => by
      rw [hw, StorageMap.get_insert_of_ne (hp hc).1] at hw'
      exact h.lt_watermark (hp hc).2 hw'
    recipients := fun hc => h.recipients (hp hc).2
    silent := fun hc hlt r =>
      ((h.silent (hp hc).2 hlt r).prune para c.hrmpWatermark).queue (hp hc).1 c.horizontalMessages }

/-! ## The invariant -/

/-- The storage of HRMP holds sound lines. -/
structure Core (host : Host) (s : State) (a : HrmpLines) : Prop where
  rep : Hrmp.Represents host s.blockNumber s.hrmp a
  sound : Lines.Sound names s.blockNumber a
  deposited : Deposited s.config a

structure Invariant (host : Host) (s : State) (a : HrmpLines) : Prop extends Core host s a where
  waiting : Waiting s

/-- What the operations of a move from `s` to `s'` can be. -/
def Quiet (s s' : State) : HrmpOp → Prop
  | .request id t => ∃ capacity size, CanRequest s id capacity size ∧ t = proposed s.config capacity size
  | .agree _ complete => complete = withDeposit s.config
  | .connect admitted => admitted = {p | s'.paras.isValidPara p = true}
  | .send _ _ => False
  | .receive _ _ => False
  | _ => True

/-- The operations of a move: none of them sends or receives, and those of them that open lines open
none that was open. -/
structure MoveOps (host : Host) (i : Input) (s s' : State) (a : HrmpLines) (ops : List HrmpOp) :
    Prop where
  core : Core host s' (a.applyAll names ops)
  quiet : ∀ op ∈ ops, Quiet s s' op
  continues (id : HrmpChannelId) : Continues names id a (a.applyAll names ops) []
  /-- Lines are opened when no candidate waits, or by force. -/
  opens : (∃ admitted, .connect admitted ∈ ops) → s'.pendingAvailability = .empty ∨
    s'.pendingAvailability = s.pendingAvailability ∧
      ∃ canReserve, i = .hrmpCall canReserve .root .forceProcessHrmpOpen
  /-- A candidate that waits did so before, or is new. -/
  pending {p c} : s'.pendingAvailability.get p = some c → s.pendingAvailability.get p = some c ∨
    ops = [] ∧ i = .backed p c.commitments ∧ CanBack s p c.commitments

/-- A move that does nothing to the lines. -/
theorem Core.moveOps_nil (h : Core host s a) (h' : Core host s' a)
    (hp : ∀ p c, s'.pendingAvailability.get p = some c → s.pendingAvailability.get p = some c ∨
      i = .backed p c.commitments ∧ CanBack s p c.commitments) : MoveOps host i s s' a [] :=
  ⟨h', by simp, Continues.refl h.sound, by simp, fun {p c} hc => (hp p c hc).imp id fun h => ⟨rfl, h⟩⟩

/-- A move that is a single operation. -/
theorem Core.moveOps_one (h : Core host s a) (op : HrmpOp) (ho : Allowed names s.blockNumber a op)
    (hsent : ∀ x, Lines.sentOn x op = []) (hq : Quiet s s' op)
    (hr : Hrmp.Represents host s'.blockNumber s'.hrmp (a.apply names op))
    (hb : s'.blockNumber = s.blockNumber) (hp : s'.pendingAvailability = s.pendingAvailability)
    (hc : ∀ admitted, op = .connect admitted →
      ∃ canReserve, i = .hrmpCall canReserve .root .forceProcessHrmpOpen)
    (hd : Deposited s'.config (a.apply names op)) : MoveOps host i s s' a [op] where
  core := ⟨hr, hb ▸ h.sound.apply ho, hd⟩
  quiet := by simpa using hq
  continues id := hsent id ▸ Lines.continues_apply h.sound ho id
  opens := fun ⟨admitted, hm⟩ => .inr ⟨hp, hc admitted (List.mem_singleton.mp hm).symm⟩
  pending hget := .inl (hp ▸ hget)

theorem Core.move (h : Core host s a) (hm : Move i s s') : ∃ ops, MoveOps host i s s' a ops := by
  obtain ⟨hr, hs, hd⟩ := id h
  cases hm with
  | idle s' he hf hp =>
    refine ⟨[], h.moveOps_nil ⟨?_, ?_, ?_⟩ fun p c hc => .inl (hp p c hc)⟩
    · rw [he, hf.blockNumber]; exact hr
    · rw [hf.blockNumber]; exact hs
    · rw [hf.config]; exact hd
  | newBlock _ =>
    exact ⟨[], h.moveOps_nil ⟨hr.later (Nat.le_succ _), hs.later (Nat.le_succ _), hd⟩
      fun _ _ hc => .inl hc⟩
  | request dmp id capacity size hreq =>
    refine ⟨_, h.moveOps_one (.request id (proposed s.config capacity size))
      (hr.line_eq_none hreq.notOpen) (fun _ => rfl) ⟨capacity, size, hreq, rfl⟩
      (hr.request (hr.requested_eq_none hreq.notRequested) s.config capacity size) rfl rfl nofun
      fun id' t ht => ?_⟩
    by_cases he : id' = id
    · rw [he, Lines.requested_request] at ht; cases ht
    · rw [Lines.requested_request_of_ne he] at ht; exact hd id' t ht
  | accept dmp id request hacc =>
    obtain ⟨⟨t, confirmed⟩, hreq, rfl⟩ := hr.requested_eq_some hacc.requested
    obtain rfl : confirmed = false := hacc.unconfirmed
    refine ⟨_, h.moveOps_one (.agree id (withDeposit s.config))
      (Option.isSome_iff_exists.mpr ⟨_, hreq⟩) (fun _ => rfl) rfl (hr.accept hreq s.config) rfl rfl
      nofun fun id' t' ht => ?_⟩
    by_cases he : id' = id
    · rw [he, Lines.requested_agree, hreq] at ht
      cases ht; rfl
    · rw [Lines.requested_agree_of_ne he] at ht; exact hd id' t' ht
  | cancel id request hget hc =>
    obtain ⟨r, hreq, rfl⟩ := hr.requested_eq_some hget
    refine ⟨_, h.moveOps_one (.withdraw id) trivial (fun _ => rfl) trivial (hr.cancel hreq) rfl
      rfl nofun fun id' t ht => ?_⟩
    by_cases he : id' = id
    · rw [he, Lines.requested_withdraw] at ht; cases ht
    · rw [Lines.requested_withdraw_of_ne he] at ht; exact hd id' t ht
  | askClose dmp id hopen hn =>
    rw [hr.channels, Option.isSome_map] at hopen
    exact ⟨_, h.moveOps_one (.askClose id) hopen (fun _ => rfl) trivial (hr.askClose hn) rfl rfl
      nofun hd⟩
  | clean para =>
    exact ⟨_, h.moveOps_one (.cut para) trivial (fun _ => rfl) trivial (hr.clean para) rfl rfl
      nofun hd⟩
  | processOpen hrmp hi ho =>
    obtain ⟨hrmp', ho', hr'⟩ := hr.processOpen hs s.paras.isValidPara hd
    obtain rfl : hrmp' = hrmp := Option.some.inj (ho'.symm.trans ho)
    exact ⟨_, h.moveOps_one (.connect _) trivial (fun _ => rfl) rfl hr' rfl rfl (fun _ _ => hi)
      fun id t ht => absurd ht (Lines.connectIn_univ_requested names _ id t)⟩
  | processClose =>
    exact ⟨_, h.moveOps_one .closeAsked trivial (fun _ => rfl) trivial hr.processClose rfl rfl
      nofun hd⟩
  | backed para c hi hb =>
    refine ⟨[], h.moveOps_nil ⟨hr, hs, hd⟩ fun p c' hc => ?_⟩
    rcases StorageMap.get_insert_cases hc with ⟨rfl, rfl⟩ | ⟨-, hc⟩
    · exact .inr ⟨hi, hb⟩
    · exact .inl hc
  | session n hrmp _ hnew =>
    obtain ⟨hrmp', h', hr'⟩ := hr.newSession hs hd (s.paras.applyActionsQueue n).1.isValidPara
      (s.paras.applyActionsQueue n).2
    obtain rfl : hrmp' = hrmp := Option.some.inj (h'.symm.trans hnew)
    have ho := allowedAll_session s.blockNumber a (s.paras.applyActionsQueue n).1.isValidPara
      (s.paras.applyActionsQueue n).2
    refine ⟨_, ⟨hr', hs.applyAll ho, deposited_session _ _ _ _⟩, fun op hop => ?_, fun id => ?_,
      fun _ => .inl rfl, fun hc => by cases hc⟩
    · simp only [sessionOps, List.mem_cons, List.mem_append, List.mem_map, List.not_mem_nil,
        or_false] at hop
      rcases hop with rfl | ⟨p, -, rfl⟩ | rfl | rfl
      · trivial
      · trivial
      · rfl
      · trivial
    · have hc := Lines.continues_applyAll hs ho fun op hop t => not_request_session op hop id t
      have hsent : (sessionOps (s.paras.applyActionsQueue n).1.isValidPara
          (s.paras.applyActionsQueue n).2).flatMap (Lines.sentOn id) = [] := by
        simp [sessionOps, Lines.sentOn, List.flatMap_map]
      rwa [hsent] at hc

theorem Invariant.move (h : Invariant host s a) (hm : Move i s s') :
    ∃ ops, MoveOps host i s s' a ops ∧ Invariant host s' (a.applyAll names ops) := by
  obtain ⟨ops, ho⟩ := h.toCore.move hm
  exact ⟨ops, ho, ho.core, h.waiting.move hm h.rep.digestPast⟩

/-- What a candidate of `para` that is included in block `now` sends on a channel. -/
def outbound (now : BlockNumber) (para : ParaId) (msgs : List OutboundHrmpMessage)
    (id : HrmpChannelId) : List InboundHrmpMessage :=
  (msgs.filter fun m => HrmpChannelId.mk para m.recipient = id).map fun m => ⟨now, m.data⟩

theorem flatMap_sentOn_sends (now : BlockNumber) (para : ParaId) (msgs : List OutboundHrmpMessage)
    (id : HrmpChannelId) :
    (sends now para msgs).flatMap (Lines.sentOn id) = outbound now para msgs id := by
  induction msgs with
  | nil => rfl
  | cons m msgs ih =>
    rw [sends, List.map_cons, List.flatMap_cons, ← sends, ih]
    by_cases hid : HrmpChannelId.mk para m.recipient = id
    · simp [Lines.sentOn, outbound, hid]
    · simp [Lines.sentOn, outbound, hid]

theorem allowedAll_sends (now : BlockNumber) (para : ParaId) (msgs : List OutboundHrmpMessage)
    (a : HrmpLines) : AllowedAll names now a (sends now para msgs) := by
  induction msgs generalizing a with
  | nil => trivial
  | cons m msgs ih => exact ⟨rfl, ih _⟩

theorem requested_sends (now : BlockNumber) (para : ParaId) (msgs : List OutboundHrmpMessage)
    (a : HrmpLines) : (a.applyAll names (sends now para msgs)).requested = a.requested := by
  induction msgs generalizing a with
  | nil => rfl
  | cons m msgs ih => exact (ih _).trans rfl

theorem line_sends_of_ne {id : HrmpChannelId} {para : ParaId} (hne : id.sender ≠ para)
    (now : BlockNumber) (msgs : List OutboundHrmpMessage) (a : HrmpLines) :
    (a.applyAll names (sends now para msgs)).line id = a.line id := by
  induction msgs generalizing a with
  | nil => rfl
  | cons m msgs ih =>
    have hid : id ≠ ⟨para, m.recipient⟩ := by rintro rfl; exact hne rfl
    exact (ih _).trans (Lines.line_send_of_ne hid)

/-- The operations of a candidate's inclusion. -/
def inclusionOps (now : BlockNumber) (para : ParaId) (c : CandidateCommitments) : List HrmpOp :=
  .receive para c.hrmpWatermark :: sends now para c.horizontalMessages

theorem Invariant.included (h : Invariant host s a) {para : ParaId}
    {c : CandidatePendingAvailability} (hp : s.pendingAvailability.get para = some c)
    (hb : c.backedInNumber < s.blockNumber) :
    Invariant host (includedState host s para c.commitments)
        (a.applyAll names (inclusionOps s.blockNumber para c.commitments)) ∧
      ∀ id, Continues names id a (a.applyAll names (inclusionOps s.blockNumber para c.commitments))
        (outbound s.blockNumber para c.commitments.horizontalMessages id) := by
  have ho : AllowedAll names s.blockNumber a (inclusionOps s.blockNumber para c.commitments) := by
    refine ⟨⟨(h.waiting.watermark_lt hp).trans hb, fun w hw => ?_⟩, allowedAll_sends ..⟩
    rw [← h.rep.watermarks] at hw
    exact (h.waiting.lt_watermark hp hw).le
  have hr := (h.rep.prune h.sound para c.commitments.hrmpWatermark).queue
    (h.waiting.recipients hp) fun m _ => (h.waiting.silent hp hb m.recipient).prune _ _
  refine ⟨⟨⟨hr, h.sound.applyAll ho, fun id t ht => ?_⟩, h.waiting.included⟩, fun id => ?_⟩
  · refine h.deposited id t ?_
    have e := requested_sends s.blockNumber para c.commitments.horizontalMessages
      (a.apply names (.receive para c.commitments.hrmpWatermark))
    exact (congrFun e id).symm.trans ht
  · have hc := Lines.continues_applyAll h.sound ho (x := id) fun op hop t he => by
      subst he
      simp [inclusionOps, sends] at hop
    rwa [inclusionOps, List.flatMap_cons, flatMap_sentOn_sends] at hc

end SIM.Proof.Relay
