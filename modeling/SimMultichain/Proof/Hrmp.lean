import SimMultichain.Spec.Lines
import SimMultichain.Framework.HashChain
import SimMultichain.Impl.Hrmp

/-!
# The storage of HRMP holds lines

The storage of the `hrmp` pallet refines `Spec.Lines`, with paras as parties and channels as lines:
`Represents` says how the requests with their list, the channels with their two
indexes, contents and digests hold requested and open lines. Every function of the pallet that
changes them then is an operation on lines:

* `closeHrmpChannel` and what calls it close lines (`Represents.clean`,
  `Represents.processClose`);
* `processHrmpOpenChannelRequests` connects the agreed ones, and never stops the runtime
  (`Represents.processOpen`);
* `pruneHrmp`, which only looks at the channels it finds in the digest of the recipient, receives on
  every line to it (`Represents.prune`);
* `queueOutboundHrmp` sends (`Represents.queue`).
-/

namespace SIM.Proof.Hrmp

open SIM.Impl (ParaId Hash)
open SIM.Impl.Relay
open SIM.Spec (Names Lines LineOp)
open SIM.Spec.Lines (Allowed isAfter)

/-- The terms of a channel. The recipient's deposit is settled when it accepts. -/
structure Terms where
  maxMessageSize : UInt32
  maxCapacity : UInt32
  maxTotalSize : UInt32
  senderDeposit : Balance
  recipientDeposit : Balance

abbrev names : Names HrmpChannelId ParaId InboundHrmpMessage where
  src := HrmpChannelId.sender
  dst := HrmpChannelId.recipient
  stamp := InboundHrmpMessage.sentAt

/-- Paras, the channels between them and their messages, as lines. -/
abbrev HrmpLines := Lines HrmpChannelId ParaId Terms InboundHrmpMessage

abbrev HrmpOp := LineOp HrmpChannelId ParaId Terms InboundHrmpMessage

/-- The stored form of a request. -/
def toRequest (r : Terms × Bool) : HrmpOpenChannelRequest :=
  ⟨r.2, r.1.senderDeposit, r.1.maxMessageSize, r.1.maxCapacity, r.1.maxTotalSize⟩

/-- The head of a message queue chain, which starts with the first message. -/
def mqcHead (host : Host) (ms : List InboundHrmpMessage) : Option Hash :=
  if ms = [] then none else some (chainHead (Hrmp.mqcLink host) zeroHash ms)

/-- The stored form of an open line. The counters are those of the messages that wait, modulo
`2³²`; the head is that of all messages sent. -/
def toChannel (host : Host) (l : Terms × Channel InboundHrmpMessage) : HrmpChannel where
  maxCapacity := l.1.maxCapacity
  maxTotalSize := l.1.maxTotalSize
  maxMessageSize := l.1.maxMessageSize
  msgCount := UInt32.ofNat l.2.queue.length
  totalSize := UInt32.ofNat (Hrmp.dataSize l.2.queue)
  mqcHead := mqcHead host l.2.sent
  senderDeposit := l.1.senderDeposit
  recipientDeposit := l.1.recipientDeposit

/-- The stored contents of a line: nothing if no message waits. -/
def toContents (l : Terms × Channel InboundHrmpMessage) : Option (List InboundHrmpMessage) :=
  if l.2.queue = [] then none else some l.2.queue

/-- The storage `s` holds the lines `a`, in block `now`. -/
structure Represents (host : Host) (now : BlockNumber) (s : Impl.Relay.Hrmp) (a : HrmpLines) : Prop where
  requests (id : HrmpChannelId) : s.openChannelRequests.get id = (a.requested id).map toRequest
  requestsNodup : s.openChannelRequestsList.Nodup
  mem_requests (id : HrmpChannelId) : id ∈ s.openChannelRequestsList ↔ (a.requested id).isSome
  closes (id : HrmpChannelId) : (s.closeChannelRequests.get id).isSome ↔ id ∈ a.closing
  closesNodup : s.closeChannelRequestsList.Nodup
  mem_closes (id : HrmpChannelId) : id ∈ s.closeChannelRequestsList ↔ id ∈ a.closing
  watermarks (p : ParaId) : s.watermarks.get p = a.received p
  channels (id : HrmpChannelId) : s.channels.get id = (a.line id).map (toChannel host)
  contents (id : HrmpChannelId) : s.channelContents.get id = (a.line id).bind toContents
  ingress (p q : ParaId) : q ∈ s.ingressChannelsIndex p ↔ (a.line ⟨q, p⟩).isSome
  egress (p q : ParaId) : q ∈ s.egressChannelsIndex p ↔ (a.line ⟨p, q⟩).isSome
  digestSorted (p : ParaId) : (s.channelDigests p).Pairwise fun e e' => e.1 < e'.1
  digestPast {p : ParaId} {e} : e ∈ s.channelDigests p → e.1 ≤ now
  digestNodup {p : ParaId} {e} : e ∈ s.channelDigests p → e.2 ≠ [] ∧ e.2.Nodup
  digestCovers {id t c m} : a.line id = some (t, c) → m ∈ c.queue →
    ∃ e ∈ s.channelDigests id.recipient, e.1 = m.sentAt ∧ id.sender ∈ e.2

theorem Represents.empty (host : Host) (now : BlockNumber) :
    Represents host now Hrmp.empty (Lines.empty : HrmpLines) := by
  constructor <;> simp [Hrmp.empty, Lines.empty]

variable {host : Host} {now : BlockNumber} {s : Impl.Relay.Hrmp} {a : HrmpLines}

/-- The contents of a line that is open are its messages that wait. -/
theorem Represents.contents_eq (h : Represents host now s a) {id : HrmpChannelId} {t : Terms}
    {c : Channel InboundHrmpMessage} (hl : a.line id = some (t, c)) : s.contents id = c.queue := by
  rw [Hrmp.contents, h.contents, hl, Option.bind_some, toContents]
  split_ifs with hq
  · exact hq.symm
  · rfl

theorem Represents.later (h : Represents host now s a) {now' : BlockNumber} (hn : now ≤ now') :
    Represents host now' s a := { h with digestPast := fun he => (h.digestPast he).trans hn }

/-! ## Closing -/

/-- `s'` is `s` with the channels in `D` closed, counts of requests and deposits aside. -/
structure Closes (D : Set HrmpChannelId) (s s' : Impl.Relay.Hrmp) : Prop where
  channels_mem {id} : id ∈ D → s'.channels.get id = none
  channels_not_mem {id} : id ∉ D → s'.channels.get id = s.channels.get id
  contents_mem {id} : id ∈ D → s'.channelContents.get id = none
  contents_not_mem {id} : id ∉ D → s'.channelContents.get id = s.channelContents.get id
  ingress (p q) : q ∈ s'.ingressChannelsIndex p ↔ q ∈ s.ingressChannelsIndex p ∧ ⟨q, p⟩ ∉ D
  egress (p q) : q ∈ s'.egressChannelsIndex p ↔ q ∈ s.egressChannelsIndex p ∧ ⟨p, q⟩ ∉ D
  requests : s'.openChannelRequests = s.openChannelRequests
  requestsList : s'.openChannelRequestsList = s.openChannelRequestsList
  closes : s'.closeChannelRequests = s.closeChannelRequests
  closesList : s'.closeChannelRequestsList = s.closeChannelRequestsList
  watermarks : s'.watermarks = s.watermarks
  digests : s'.channelDigests = s.channelDigests

theorem Closes.refl (s : Impl.Relay.Hrmp) : Closes ∅ s s := by
  constructor <;> simp

theorem Closes.trans {D D' : Set HrmpChannelId} {s s' s'' : Impl.Relay.Hrmp} (h : Closes D s s')
    (h' : Closes D' s' s'') : Closes (D ∪ D') s s'' where
  channels_mem {id} hid := by
    by_cases hD : id ∈ D'
    · exact h'.channels_mem hD
    · rw [h'.channels_not_mem hD]; exact h.channels_mem (hid.resolve_right hD)
  channels_not_mem hid := by
    rw [Set.mem_union, not_or] at hid
    rw [h'.channels_not_mem hid.2, h.channels_not_mem hid.1]
  contents_mem {id} hid := by
    by_cases hD : id ∈ D'
    · exact h'.contents_mem hD
    · rw [h'.contents_not_mem hD]; exact h.contents_mem (hid.resolve_right hD)
  contents_not_mem hid := by
    rw [Set.mem_union, not_or] at hid
    rw [h'.contents_not_mem hid.2, h.contents_not_mem hid.1]
  ingress p q := by rw [h'.ingress, h.ingress, Set.mem_union, not_or, and_assoc]
  egress p q := by rw [h'.egress, h.egress, Set.mem_union, not_or, and_assoc]
  requests := h'.requests.trans h.requests
  requestsList := h'.requestsList.trans h.requestsList
  closes := h'.closes.trans h.closes
  closesList := h'.closesList.trans h.closesList
  watermarks := h'.watermarks.trans h.watermarks
  digests := h'.digests.trans h.digests

/-- What is reserved once the deposits of a channel are returned. -/
def refunded (s : Impl.Relay.Hrmp) (id : HrmpChannelId) : ParaId → Balance :=
  match s.channels.get id with
  | some channel =>
    let r := Function.update s.reserved id.sender (s.reserved id.sender - channel.senderDeposit)
    Function.update r id.recipient (r id.recipient - channel.recipientDeposit)
  | none => s.reserved

/-- Closing a channel, whether or not it is open. -/
theorem closeHrmpChannel_eq (id : HrmpChannelId) (s : Impl.Relay.Hrmp) :
    s.closeHrmpChannel id = { s with
      channels := s.channels.erase id
      channelContents := s.channelContents.erase id
      egressChannelsIndex := Function.update s.egressChannelsIndex id.sender
        ((s.egressChannelsIndex id.sender).remove id.recipient)
      ingressChannelsIndex := Function.update s.ingressChannelsIndex id.recipient
        ((s.ingressChannelsIndex id.recipient).remove id.sender)
      reserved := refunded s id } := by
  unfold Hrmp.closeHrmpChannel refunded
  cases hc : s.channels.get id with
  | some channel => rfl
  | none => rw [StorageMap.erase_of_get_eq_none hc]

theorem closes_closeHrmpChannel (id : HrmpChannelId) (s : Impl.Relay.Hrmp) :
    Closes {id} s (s.closeHrmpChannel id) := by
  rw [closeHrmpChannel_eq]
  refine ⟨?_, ?_, ?_, ?_, fun p q => ?_, fun p q => ?_, rfl, rfl, rfl, rfl, rfl, rfl⟩
  · rintro _ rfl; exact StorageMap.get_erase_self
  · intro id' hne; exact StorageMap.get_erase_of_ne hne
  · rintro _ rfl; exact StorageMap.get_erase_self
  · intro id' hne; exact StorageMap.get_erase_of_ne hne
  · by_cases hp : p = id.recipient
    · subst hp
      simp only [Function.update_self, SortedVec.mem_remove, Set.mem_singleton_iff, HrmpChannelId.ext_iff,
        and_true]
      exact and_comm
    · simp only [Function.update_of_ne hp, Set.mem_singleton_iff, HrmpChannelId.ext_iff, hp, and_false,
        not_false_eq_true, and_true]
  · by_cases hp : p = id.sender
    · subst hp
      simp only [Function.update_self, SortedVec.mem_remove, Set.mem_singleton_iff, HrmpChannelId.ext_iff,
        true_and]
      exact and_comm
    · simp only [Function.update_of_ne hp, Set.mem_singleton_iff, HrmpChannelId.ext_iff, hp, false_and,
        not_false_eq_true, and_true]

theorem closes_foldl (l : List HrmpChannelId) (s : Impl.Relay.Hrmp) :
    Closes {id | id ∈ l} s (l.foldl (fun s id => s.closeHrmpChannel id) s) := by
  induction l generalizing s with
  | nil => simpa using Closes.refl s
  | cons id l ih =>
    have h := (closes_closeHrmpChannel id s).trans (ih _)
    rwa [show ({id} ∪ {id' | id' ∈ l} : Set HrmpChannelId) = {id' | id' ∈ id :: l} by
      ext; simp] at h

/-- A storage with some channels closed holds the lines with those closed. -/
theorem Represents.closed (h : Represents host now s a) {D : Set HrmpChannelId} {s' : Impl.Relay.Hrmp}
    (hc : Closes D s s') : Represents host now s' (a.closeIn D) where
  requests id := by rw [hc.requests]; exact h.requests id
  requestsNodup := by rw [hc.requestsList]; exact h.requestsNodup
  mem_requests id := by rw [hc.requestsList]; exact h.mem_requests id
  closes id := by rw [hc.closes]; exact h.closes id
  closesNodup := by rw [hc.closesList]; exact h.closesNodup
  mem_closes id := by rw [hc.closesList]; exact h.mem_closes id
  watermarks p := by rw [hc.watermarks]; exact h.watermarks p
  channels id := by
    by_cases hid : id ∈ D
    · rw [hc.channels_mem hid, Lines.closeIn]; simp [hid]
    · rw [hc.channels_not_mem hid, h.channels, Lines.closeIn]; simp [hid]
  contents id := by
    by_cases hid : id ∈ D
    · rw [hc.contents_mem hid, Lines.closeIn]; simp [hid]
    · rw [hc.contents_not_mem hid, h.contents, Lines.closeIn]; simp [hid]
  ingress p q := by
    rw [hc.ingress, h.ingress, Lines.closeIn]
    by_cases hid : HrmpChannelId.mk q p ∈ D <;> simp [hid]
  egress p q := by
    rw [hc.egress, h.egress, Lines.closeIn]
    by_cases hid : HrmpChannelId.mk p q ∈ D <;> simp [hid]
  digestSorted p := by rw [hc.digests]; exact h.digestSorted p
  digestPast := by rw [hc.digests]; exact h.digestPast
  digestNodup := by rw [hc.digests]; exact h.digestNodup
  digestCovers {id t c m} hl hm := by
    rw [hc.digests]
    simp only [Lines.closeIn] at hl
    split_ifs at hl
    exact h.digestCovers hl hm

/-- The lines of a para. -/
abbrev ofPara (p : ParaId) : Set HrmpChannelId := {id | id.sender = p ∨ id.recipient = p}

/-- A para's entries in the indexes are emptied before the channels they name are closed, which
closes all its lines: the indexes name every open one. -/
theorem Represents.closes_clean (h : Represents host now s a) (p : ParaId) :
    Closes (ofPara p) s (s.cleanHrmpAfterOutgoing p) := by
  set L := SortedVec.ofList (((s.ingressChannelsIndex p).items.map fun q => HrmpChannelId.mk q p) ++
    ((s.egressChannelsIndex p).items.map fun q => HrmpChannelId.mk p q)) with hL
  set s₀ : Impl.Relay.Hrmp := { s with
    openChannelRequestCount := Function.update s.openChannelRequestCount p 0
    acceptedChannelRequestCount := Function.update s.acceptedChannelRequestCount p 0
    ingressChannelsIndex := Function.update s.ingressChannelsIndex p .empty
    egressChannelsIndex := Function.update s.egressChannelsIndex p .empty } with hs₀
  have hc : Closes {id | id ∈ L.items} s₀ (s.cleanHrmpAfterOutgoing p) := closes_foldl L.items s₀
  -- the channels that are closed are the open ones of `p`
  have hmem : ∀ id, id ∈ L.items ↔ id ∈ ofPara p ∧ (a.line id).isSome := by
    intro id
    rw [SortedVec.mem_items, hL, SortedVec.mem_ofList, List.mem_append, List.mem_map, List.mem_map]
    simp only [SortedVec.mem_items, h.ingress, h.egress]
    constructor
    · rintro (⟨q, hq, rfl⟩ | ⟨q, hq, rfl⟩)
      · exact ⟨.inr rfl, hq⟩
      · exact ⟨.inl rfl, hq⟩
    · rintro ⟨rfl | rfl, hl⟩
      · exact .inr ⟨id.recipient, hl, rfl⟩
      · exact .inl ⟨id.sender, hl, rfl⟩
  have hnone : ∀ {id}, id ∉ {id | id ∈ L.items} → id ∈ ofPara p → a.line id = none := by
    intro id hid hp
    by_contra hl
    exact hid ((hmem id).mpr ⟨hp, Option.isSome_iff_ne_none.mpr hl⟩)
  have hother : ∀ {id}, id ∉ ofPara p → id ∉ {id | id ∈ L.items} := fun hp hid =>
    hp ((hmem _).mp hid).1
  refine ⟨fun {id} hp => ?_, fun hp => hc.channels_not_mem (hother hp), fun {id} hp => ?_,
    fun hp => hc.contents_not_mem (hother hp), fun r q => ?_, fun r q => ?_, hc.requests,
    hc.requestsList, hc.closes, hc.closesList, hc.watermarks, hc.digests⟩
  · by_cases hid : id ∈ {id | id ∈ L.items}
    · exact hc.channels_mem hid
    · rw [hc.channels_not_mem hid]; exact (h.channels id).trans (by rw [hnone hid hp]; rfl)
  · by_cases hid : id ∈ {id | id ∈ L.items}
    · exact hc.contents_mem hid
    · rw [hc.contents_not_mem hid]; exact (h.contents id).trans (by rw [hnone hid hp]; rfl)
  · rw [hc.ingress]
    by_cases hr : r = p
    · simp [hs₀, hr]
    · have e : s₀.ingressChannelsIndex r = s.ingressChannelsIndex r := Function.update_of_ne hr _ _
      rw [e, h.ingress]
      refine and_congr_right fun hl => not_congr ((hmem _).trans (and_iff_left hl))
  · rw [hc.egress]
    by_cases hr : r = p
    · simp [hs₀, hr]
    · have e : s₀.egressChannelsIndex r = s.egressChannelsIndex r := Function.update_of_ne hr _ _
      rw [e, h.egress]
      refine and_congr_right fun hl => not_congr ((hmem _).trans (and_iff_left hl))

theorem Represents.clean (h : Represents host now s a) (p : ParaId) :
    Represents host now (s.cleanHrmpAfterOutgoing p) (a.apply names (.cut p)) :=
  h.closed (h.closes_clean p)

/-- Closing a channel does not look at the close requests. -/
theorem closeHrmpChannel_withCloses (id : HrmpChannelId) (s : Impl.Relay.Hrmp)
    (m : StorageMap HrmpChannelId Unit) (l : List HrmpChannelId) :
    ({ s with closeChannelRequests := m, closeChannelRequestsList := l } :
      Impl.Relay.Hrmp).closeHrmpChannel id =
      { s.closeHrmpChannel id with closeChannelRequests := m, closeChannelRequestsList := l } := by
  simp only [closeHrmpChannel_eq]
  rfl

/-- The loop over the close requests, with the requests and the channels apart. -/
theorem foldl_closeRequests (l l' : List HrmpChannelId) (s : Impl.Relay.Hrmp)
    (m : StorageMap HrmpChannelId Unit) :
    l.foldl (fun s id => ({ s with closeChannelRequests := s.closeChannelRequests.erase id } :
      Impl.Relay.Hrmp).closeHrmpChannel id)
        { s with closeChannelRequests := m, closeChannelRequestsList := l' } =
      { l.foldl (fun s id => s.closeHrmpChannel id) s with
        closeChannelRequests := l.foldl StorageMap.erase m
        closeChannelRequestsList := l' } := by
  induction l generalizing s m with
  | nil => rfl
  | cons id l ih =>
    rw [List.foldl_cons, List.foldl_cons, List.foldl_cons, ← ih]
    exact congrArg (List.foldl _ · l) (closeHrmpChannel_withCloses id s (m.erase id) l')

theorem Represents.processClose (h : Represents host now s a) :
    Represents host now s.processHrmpCloseChannelRequests (a.apply names .closeAsked) := by
  have hD : {id | id ∈ s.closeChannelRequestsList} = a.closing := Set.ext h.mem_closes
  have hc := closes_foldl s.closeChannelRequestsList s
  have hr := h.closed hc
  rw [hD] at hc hr
  rw [Hrmp.processHrmpCloseChannelRequests]
  have e := foldl_closeRequests s.closeChannelRequestsList [] s s.closeChannelRequests
  rw [e]
  exact { hr with
    closes := fun id => by
      rw [StorageMap.get_foldl_erase]
      simp only [Lines.apply, Set.mem_empty_iff_false, iff_false, h.mem_closes]
      split_ifs with hid
      · simp
      · rw [h.closes, ← h.mem_closes]; exact hid
    closesNodup := List.nodup_nil
    mem_closes := fun id => by simp [Lines.apply] }

/-! ## Dropping requests -/

/-- A dropped request, counts of requests and deposits aside. -/
theorem cleanRequest_eq (config : HostConfiguration) (outgoing : List ParaId) (s : Impl.Relay.Hrmp)
    (id : HrmpChannelId) : ∃ r n, s.cleanRequest config outgoing id = { s with
      openChannelRequests := s.openChannelRequests.erase id
      reserved := r
      acceptedChannelRequestCount := n } := by
  unfold Hrmp.cleanRequest
  cases hr : s.openChannelRequests.get id with
  | none => exact ⟨s.reserved, s.acceptedChannelRequestCount, by
      rw [StorageMap.erase_of_get_eq_none hr]⟩
  | some request =>
    by_cases h₁ : id.sender ∈ outgoing <;> by_cases h₂ : id.recipient ∈ outgoing <;>
      cases h₃ : request.confirmed <;> simp only [h₁, h₂, h₃, if_true, if_false, Bool.false_eq_true] <;>
      exact ⟨_, _, rfl⟩

theorem foldl_cleanRequest (config : HostConfiguration) (outgoing : List ParaId)
    (l : List HrmpChannelId) (s : Impl.Relay.Hrmp) :
    ∃ r n, l.foldl (fun s id => s.cleanRequest config outgoing id) s = { s with
      openChannelRequests := l.foldl StorageMap.erase s.openChannelRequests
      reserved := r
      acceptedChannelRequestCount := n } := by
  induction l generalizing s with
  | nil => exact ⟨_, _, rfl⟩
  | cons id l ih =>
    obtain ⟨r, n, e⟩ := cleanRequest_eq config outgoing s id
    obtain ⟨r', n', e'⟩ := ih (s.cleanRequest config outgoing id)
    refine ⟨r', n', ?_⟩
    rw [List.foldl_cons, e', e, List.foldl_cons]

theorem Represents.forget (h : Represents host now s a) (config : HostConfiguration)
    (outgoing : List ParaId) : Represents host now (s.cleanOpenChannelRequests config outgoing)
      (a.apply names (.forget {p | p ∈ outgoing})) := by
  set leaves : HrmpChannelId → Bool := fun id => outgoing.any id.isParticipant with hleaves
  have hgo : ∀ id, leaves id = true ↔ id.sender ∈ outgoing ∨ id.recipient ∈ outgoing := by
    intro id
    simp only [hleaves, HrmpChannelId.isParticipant, List.any_eq_true, Bool.or_eq_true,
      decide_eq_true_eq]
    constructor
    · rintro ⟨p, hp, rfl | rfl⟩
      · exact .inl hp
      · exact .inr hp
    · rintro (hp | hp)
      · exact ⟨_, hp, .inl rfl⟩
      · exact ⟨_, hp, .inr rfl⟩
  have hreq : ∀ id, (a.apply names (.forget {p | p ∈ outgoing})).requested id =
      if leaves id then none else a.requested id := by
    intro id
    simp only [Lines.apply, Lines.forgetIn, Set.mem_ofPred_eq]
    split_ifs with h₁ h₂ h₂
    · rfl
    · exact absurd ((hgo id).mpr h₁) h₂
    · exact absurd ((hgo id).mp h₂) h₁
    · rfl
  obtain ⟨r, n, e⟩ := foldl_cleanRequest config outgoing (s.openChannelRequestsList.filter leaves)
    { s with openChannelRequestsList := s.openChannelRequestsList.filter fun id => !leaves id }
  have e' : s.cleanOpenChannelRequests config outgoing = _ := e
  rw [e']
  exact { h with
    requests := fun id => by
      rw [StorageMap.get_foldl_erase, hreq]
      simp only [List.mem_filter]
      by_cases hl : leaves id = true
      · by_cases hm : id ∈ s.openChannelRequestsList
        · rw [if_pos ⟨hm, hl⟩, if_pos hl]; rfl
        · have hn : a.requested id = none :=
            Option.not_isSome_iff_eq_none.mp fun hc => hm ((h.mem_requests id).mpr hc)
          rw [if_neg (fun hc => hm hc.1), if_pos hl, h.requests, hn]
      · rw [if_neg (fun hc => hl hc.2), if_neg hl, h.requests]
    requestsNodup := h.requestsNodup.filter _
    mem_requests := fun id => by
      rw [List.mem_filter, hreq, h.mem_requests]
      cases hl : leaves id <;> simp }

/-! ## Opening -/

theorem enactRequest_eq (valid : ParaId → Bool) (config : HostConfiguration) (id : HrmpChannelId)
    (request : HrmpOpenChannelRequest) (s : Impl.Relay.Hrmp) :
    s.enactRequest valid config id request = { s with
      openChannelRequests := s.openChannelRequests.erase id
      openChannelRequestCount := Hrmp.decreased s.openChannelRequestCount id.sender
      acceptedChannelRequestCount := Hrmp.decreased s.acceptedChannelRequestCount id.recipient
      channels := if valid id.sender && valid id.recipient then
        s.channels.insert id (request.channel config) else s.channels
      ingressChannelsIndex := if valid id.sender && valid id.recipient then
        Function.update s.ingressChannelsIndex id.recipient
          ((s.ingressChannelsIndex id.recipient).insert id.sender) else s.ingressChannelsIndex
      egressChannelsIndex := if valid id.sender && valid id.recipient then
        Function.update s.egressChannelsIndex id.sender
          ((s.egressChannelsIndex id.sender).insert id.recipient) else s.egressChannelsIndex } := by
  unfold Hrmp.enactRequest
  split_ifs <;> rfl

/-- A confirmed request is enacted and leaves the list. -/
theorem Represents.enact {reqs : List HrmpChannelId}
    (h : Represents host now { s with openChannelRequestsList := reqs } a)
    (hs : Lines.Sound names now a) {valid : ParaId → Bool} {config : HostConfiguration} {idx : Nat}
    {id : HrmpChannelId} {t : Terms} (hid : reqs[idx]? = some id)
    (hr : a.requested id = some (t, true)) (ht : t.recipientDeposit = config.hrmpRecipientDeposit) :
    Represents host now
      { s.enactRequest valid config id (toRequest (t, true)) with
        openChannelRequestsList := swapRemove reqs idx }
      (a.connectIn names {id} {p | valid p = true}) := by
  classical
  have hline : a.line id = none := hs.apart (by rw [hr]; rfl)
  have hperm := swapRemove_perm hid
  have hnodup : (id :: swapRemove reqs idx).Nodup := hperm.nodup_iff.mpr h.requestsNodup
  rw [List.nodup_cons] at hnodup
  set a' := a.connectIn names {id} {p | valid p = true} with ha'
  have hreq : ∀ id', a'.requested id' = if id' = id then none else a.requested id' := by
    intro id'
    by_cases he : id' = id
    · subst he; simp [ha', Lines.connectIn, hr]
    · simp only [ha', Lines.connectIn, Set.mem_singleton_iff, if_neg he]
      split <;> simp_all
  have hother : ∀ id', id' ≠ id → a'.line id' = a.line id' := by
    intro id' he
    simp only [ha', Lines.connectIn, Set.mem_singleton_iff, he, false_and, if_false]
    split <;> rfl
  have hself : a'.line id =
      if (valid id.sender && valid id.recipient) = true then some (t, .start []) else none := by
    simp [ha', Lines.connectIn, hr, hline]
  have hsome : ∀ id', (a'.line id').isSome ↔
      (id' = id ∧ (valid id.sender && valid id.recipient) = true) ∨ (a.line id').isSome := by
    intro id'
    by_cases he : id' = id
    · subst he
      rw [hself, hline]
      cases valid id'.sender <;> cases valid id'.recipient <;> simp
    · rw [hother _ he]; simp [he]
  have hchannel : (toRequest (t, true)).channel config = toChannel host (t, .start []) := by
    simp [HrmpOpenChannelRequest.channel, toChannel, toRequest, mqcHead, Channel.start, Channel.sent,
      Hrmp.dataSize, ht]
  rw [enactRequest_eq]
  refine ⟨fun id' => ?_, hnodup.2, fun id' => ?_, h.closes, h.closesNodup, h.mem_closes, h.watermarks,
    fun id' => ?_, fun id' => ?_, fun p q => ?_, fun p q => ?_, h.digestSorted, h.digestPast,
    h.digestNodup, fun {id' t' c m} hl hm => ?_⟩
  · rw [hreq, StorageMap.get_erase]
    split_ifs with he
    · rfl
    · exact h.requests id'
  · have hm : id' ∈ reqs ↔ id' = id ∨ id' ∈ swapRemove reqs idx := by
      rw [← hperm.mem_iff, List.mem_cons]
    rw [hreq]
    by_cases he : id' = id
    · subst he; simp [hnodup.1]
    · rw [if_neg he, ← h.mem_requests, hm, or_iff_right he]
  · by_cases he : id' = id
    · subst he
      simp only [hself]
      split_ifs
      · rw [StorageMap.get_insert_self, hchannel, Option.map_some]
      · exact (h.channels id').trans (by rw [hline])
    · rw [hother _ he, ← h.channels]
      simp only
      split_ifs
      · exact StorageMap.get_insert_of_ne he
      · rfl
  · by_cases he : id' = id
    · subst he
      refine (h.contents id').trans ?_
      rw [hself, hline]
      split_ifs <;> rfl
    · rw [hother _ he]; exact h.contents id'
  · rw [hsome, ← h.ingress]
    simp only [HrmpChannelId.ext_iff]
    split_ifs with hv
    · by_cases hp : p = id.recipient
      · simp [hp, hv]
      · simp [hp]
    · simp [hv]
  · rw [hsome, ← h.egress]
    simp only [HrmpChannelId.ext_iff]
    split_ifs with hv
    · by_cases hp : p = id.sender
      · simp [hp, hv]
      · simp [hp]
    · simp [hv]
  · by_cases he : id' = id
    · subst he
      rw [hself] at hl
      split_ifs at hl
      cases hl
      exact absurd hm List.not_mem_nil
    · rw [hother _ he] at hl
      exact h.digestCovers hl hm

/-- The loop of the open requests connects what is agreed, and finds every request it looks for. -/
theorem Represents.openLoop (valid : ParaId → Bool) {config : HostConfiguration} {idx : Nat}
    {reqs : List HrmpChannelId} (h : Represents host now { s with openChannelRequestsList := reqs } a)
    (hs : Lines.Sound names now a)
    (hd : ∀ id t, a.requested id = some (t, true) → t.recipientDeposit = config.hrmpRecipientDeposit)
    (hle : idx ≤ reqs.length)
    -- what is behind `idx` has been looked at
    (hidx : ∀ j id t, reqs[j]? = some id → a.requested id = some (t, true) → j < idx) :
    ∃ reqs' s', Hrmp.processOpenLoop valid config idx reqs s = some (reqs', s') ∧
      Represents host now { s' with openChannelRequestsList := reqs' }
        (a.apply names (.connect {p | valid p = true})) := by
  classical
  induction idx generalizing reqs s a with
  | zero =>
    refine ⟨reqs, s, rfl, ?_⟩
    rwa [Lines.apply, Lines.connectIn_univ_of_forall]
    intro id t hr
    have hm : id ∈ reqs := (h.mem_requests id).mpr (by rw [hr]; rfl)
    obtain ⟨j, hj⟩ := List.mem_iff_getElem?.mp hm
    exact absurd (hidx j id t hj hr) (Nat.not_lt_zero j)
  | succ idx ih =>
    obtain ⟨id, hid⟩ : ∃ id, reqs[idx]? = some id := ⟨_, List.getElem?_eq_getElem hle⟩
    obtain ⟨⟨t, confirmed⟩, hr⟩ := Option.isSome_iff_exists.mp
      ((h.mem_requests id).mp (List.mem_of_getElem? hid))
    have hg : s.openChannelRequests.get id = some (toRequest (t, confirmed)) := by
      have := h.requests id
      rwa [hr] at this
    simp only [Hrmp.processOpenLoop, hid, hg]
    cases confirmed with
    | false =>
      exact ih h hs hd (by omega) fun j id' t' hj hr' => by
        have hj' := hidx j id' t' hj hr'
        rcases Nat.lt_succ_iff_lt_or_eq.mp hj' with hj' | rfl
        · exact hj'
        · rw [hid] at hj
          cases hj
          rw [hr] at hr'
          cases hr'
    | true =>
      have hreq : ∀ {id' t'}, (a.connectIn names {id} {p | valid p = true}).requested id' =
          some (t', true) → a.requested id' = some (t', true) := by
        intro id' t' hr'
        simp only [Lines.connectIn] at hr'
        split at hr'
        · rename_i heq
          split_ifs at hr'
          rw [heq, hr']
        · exact hr'
      have hlen := (swapRemove_perm hid).length_eq
      rw [List.length_cons] at hlen
      obtain ⟨reqs', s', he, h'⟩ := ih (h.enact hs hid hr (hd id t hr)) (hs.connectIn {id} _)
        (fun id' t' hr' => hd id' t' (hreq hr')) (by omega) fun j id' t' hj hr' => by
          by_contra hlt
          obtain ⟨k, hk, hk'⟩ := getElem?_swapRemove (by omega) hj
          have := hidx k id' t' hk' (hreq hr')
          omega
      refine ⟨reqs', s', he, ?_⟩
      rwa [Lines.apply, Lines.connectIn_univ_connectIn] at h'

theorem Represents.processOpen (h : Represents host now s a) (hs : Lines.Sound names now a)
    (valid : ParaId → Bool) {config : HostConfiguration}
    (hd : ∀ id t, a.requested id = some (t, true) → t.recipientDeposit = config.hrmpRecipientDeposit) :
    ∃ s', s.processHrmpOpenChannelRequests valid config = some s' ∧
      Represents host now s' (a.apply names (.connect {p | valid p = true})) := by
  have hlist : Represents host now
      { s with openChannelRequestsList := s.openChannelRequestsList } a := h
  obtain ⟨reqs, s', he, h'⟩ := Represents.openLoop valid hlist hs hd le_rfl fun j id t hj _ => (List.getElem?_eq_some_iff.mp hj).1
  exact ⟨_, by rw [Hrmp.processHrmpOpenChannelRequests, he]; rfl, h'⟩

/-! ## Receiving -/

/-- An open line without its messages up to block `w`. -/
def received (w : BlockNumber) (l : Terms × Channel InboundHrmpMessage) :
    Terms × Channel InboundHrmpMessage :=
  (l.1, l.2.receiveWhile fun m => m.sentAt ≤ w)

/-- The messages of a queue come in the order of their blocks. -/
abbrev Ascending (q : List InboundHrmpMessage) : Prop := q.Pairwise fun m m' => m.sentAt ≤ m'.sentAt

theorem queue_received {w : BlockNumber} {l : Terms × Channel InboundHrmpMessage}
    (hl : Ascending l.2.queue) :
    (received w l).2.queue = l.2.queue.filter fun m => ¬ m.sentAt ≤ w := by
  refine (Lines.dropWhile_eq_filter hl w).trans (List.filter_congr fun m _ => ?_)
  simp [isAfter]

theorem dataSize_filter_add (q : List InboundHrmpMessage) (p : InboundHrmpMessage → Prop)
    [DecidablePred p] : Hrmp.dataSize (q.filter p) + Hrmp.dataSize (q.filter fun m => ¬ p m) =
      Hrmp.dataSize q := by
  induction q with
  | nil => rfl
  | cons m q ih =>
    by_cases hm : p m <;> simp_all [Hrmp.dataSize] <;> omega

theorem length_filter_add (q : List InboundHrmpMessage) (p : InboundHrmpMessage → Prop)
    [DecidablePred p] : (q.filter p).length + (q.filter fun m => ¬ p m).length = q.length := by
  rw [← List.countP_eq_length_filter, ← List.countP_eq_length_filter]
  simpa using (List.length_eq_countP_add_countP (fun m => decide (p m)) (l := q)).symm

theorem toContents_received {w : BlockNumber} {l : Terms × Channel InboundHrmpMessage}
    (hl : Ascending l.2.queue) : toContents (received w l) =
      if (l.2.queue.filter fun m => ¬ m.sentAt ≤ w).isEmpty then none
      else some (l.2.queue.filter fun m => ¬ m.sentAt ≤ w) := by
  rw [toContents, queue_received hl]
  simp only [List.isEmpty_iff]

theorem toChannel_received {w : BlockNumber} {l : Terms × Channel InboundHrmpMessage}
    (hl : Ascending l.2.queue) : toChannel host (received w l) =
      { toChannel host l with
        msgCount := (toChannel host l).msgCount -
          UInt32.ofNat (l.2.queue.filter fun m => m.sentAt ≤ w).length
        totalSize := (toChannel host l).totalSize -
          UInt32.ofNat (Hrmp.dataSize (l.2.queue.filter fun m => m.sentAt ≤ w)) } := by
  have hn := length_filter_add l.2.queue fun m => m.sentAt ≤ w
  have hd := dataSize_filter_add l.2.queue fun m => m.sentAt ≤ w
  have hsent : (received w l).2.sent = l.2.sent := Channel.sent_receiveWhile ..
  simp only [toChannel, hsent, queue_received hl]
  rw [← UInt32.ofNat_sub (by omega), ← UInt32.ofNat_sub (by omega), ← hn, ← hd,
    Nat.add_sub_cancel_left, Nat.add_sub_cancel_left]
  rfl

/-- Channels and contents hold the open lines. -/
structure Holds (host : Host) (s : Impl.Relay.Hrmp)
    (line : HrmpChannelId → Option (Terms × Channel InboundHrmpMessage)) : Prop where
  channels (id : HrmpChannelId) : s.channels.get id = (line id).map (toChannel host)
  contents (id : HrmpChannelId) : s.channelContents.get id = (line id).bind toContents

theorem pruneChannel_eq (w : BlockNumber) (s : Impl.Relay.Hrmp) (id : HrmpChannelId) :
    ∃ channels channelContents,
      s.pruneChannel w id = { s with channels := channels, channelContents := channelContents } := by
  simp only [Hrmp.pruneChannel]
  cases s.channels.get id <;> exact ⟨_, _, rfl⟩

theorem foldl_pruneChannel_eq (w : BlockNumber) (l : List HrmpChannelId) (s : Impl.Relay.Hrmp) :
    ∃ channels channelContents, l.foldl (fun s id => s.pruneChannel w id) s =
      { s with channels := channels, channelContents := channelContents } := by
  induction l generalizing s with
  | nil => exact ⟨_, _, rfl⟩
  | cons id l ih =>
    obtain ⟨c, cc, e⟩ := pruneChannel_eq w s id
    obtain ⟨c', cc', e'⟩ := ih (s.pruneChannel w id)
    exact ⟨c', cc', by rw [List.foldl_cons, e', e]⟩

theorem Holds.pruneChannel {line} (h : Holds host s line) {w : BlockNumber} {id : HrmpChannelId}
    (hq : ∀ l, line id = some l → Ascending l.2.queue) :
    Holds host (s.pruneChannel w id) (Function.update line id ((line id).map (received w))) := by
  cases hl : line id with
  | none =>
    have hc : s.channels.get id = none := by rw [h.channels, hl]; rfl
    have hcc : s.channelContents.get id = none := by rw [h.contents, hl]; rfl
    have e : s.pruneChannel w id = s := by
      simp only [Hrmp.pruneChannel, Hrmp.contents, hc, hcc]
      simp [StorageMap.erase_of_get_eq_none hcc]
    rwa [e, Option.map_none, ← hl, Function.update_eq_self]
  | some l =>
    have hc : s.channels.get id = some (toChannel host l) := by rw [h.channels, hl]; rfl
    have hcc : s.contents id = l.2.queue := by
      rw [Hrmp.contents, h.contents, hl, Option.bind_some, toContents]
      split_ifs with he
      · exact he.symm
      · rfl
    have e : s.pruneChannel w id = { s with
        channels := s.channels.insert id (toChannel host (received w l))
        channelContents := if (l.2.queue.filter fun m => ¬ m.sentAt ≤ w).isEmpty then
          s.channelContents.erase id
          else s.channelContents.insert id (l.2.queue.filter fun m => ¬ m.sentAt ≤ w) } := by
      simp only [Hrmp.pruneChannel, hc, hcc, toChannel_received (hq l hl)]
    rw [e]
    refine ⟨fun id' => ?_, fun id' => ?_⟩
    · by_cases hid : id' = id
      · subst hid
        simp
      · rw [StorageMap.get_insert_of_ne hid, Function.update_of_ne hid, h.channels]
    · by_cases hid : id' = id
      · subst hid
        rw [Function.update_self, Option.map_some, Option.bind_some, toContents_received (hq l hl)]
        simp only
        split_ifs
        · exact StorageMap.get_erase_self
        · exact StorageMap.get_insert_self
      · rw [Function.update_of_ne hid, ← h.contents]
        simp only
        split_ifs
        · exact StorageMap.get_erase_of_ne hid
        · exact StorageMap.get_insert_of_ne hid

/-- Several channels are pruned, each of them once. -/
theorem Holds.foldl_pruneChannel {line} (h : Holds host s line) {w : BlockNumber}
    {ids : List HrmpChannelId} (hids : ids.Nodup)
    (hq : ∀ id l, line id = some l → Ascending l.2.queue) :
    Holds host (ids.foldl (fun s id => s.pruneChannel w id) s)
      fun id => if id ∈ ids then (line id).map (received w) else line id := by
  induction ids generalizing s line with
  | nil => simpa using h
  | cons id ids ih =>
    rw [List.nodup_cons] at hids
    have h₁ := h.pruneChannel (w := w) (hq id)
    have h₂ := ih h₁ hids.2 ?_
    · rw [List.foldl_cons]
      convert h₂ using 2 with id'
      by_cases hid : id' = id
      · subst hid
        simp [hids.1]
      · simp [hid]
    · intro id' l hl
      by_cases hid : id' = id
      · subst hid
        rw [Function.update_self] at hl
        obtain ⟨l', hl', rfl⟩ := Option.map_eq_some_iff.mp hl
        rw [queue_received (hq _ _ hl')]
        exact (hq _ _ hl').filter _
      · rw [Function.update_of_ne hid] at hl
        exact hq _ _ hl

/-- The channels that `prune_hrmp` looks at. -/
def toPrune (s : Impl.Relay.Hrmp) (p : ParaId) (w : BlockNumber) : List HrmpChannelId :=
  (SortedVec.ofList (((s.channelDigests p).filter fun e => e.1 ≤ w).flatMap Prod.snd)).items.map
    fun q => HrmpChannelId.mk q p

/-- The entries of a para's digest after a block. -/
def digestAfter (s : Impl.Relay.Hrmp) (p : ParaId) (w : BlockNumber) : List (BlockNumber × List ParaId) :=
  (s.channelDigests p).filter fun e => ¬ e.1 ≤ w

theorem mem_toPrune {p : ParaId} {w : BlockNumber} {id : HrmpChannelId} :
    id ∈ toPrune s p w ↔
      id.recipient = p ∧ ∃ e ∈ s.channelDigests p, e.1 ≤ w ∧ id.sender ∈ e.2 := by
  rw [toPrune, List.mem_map]
  simp only [SortedVec.mem_items, SortedVec.mem_ofList, List.mem_flatMap, List.mem_filter,
    decide_eq_true_eq, and_assoc]
  constructor
  · rintro ⟨q, he, rfl⟩; exact ⟨rfl, he⟩
  · rintro ⟨rfl, he⟩; exact ⟨_, he, rfl⟩

theorem nodup_toPrune (s : Impl.Relay.Hrmp) (p : ParaId) (w : BlockNumber) : (toPrune s p w).Nodup :=
  (SortedVec.nodup _).map fun _ _ he => congrArg HrmpChannelId.sender he

/-- `prune_hrmp` changes channels and their contents as its loop does, and sets the digest and the
watermark. -/
theorem pruneHrmp_eq (p : ParaId) (w : BlockNumber) (s : Impl.Relay.Hrmp) :
    ∃ channels channelContents, s.pruneHrmp p w = { s with
        channels := channels
        channelContents := channelContents
        channelDigests := Function.update s.channelDigests p (digestAfter s p w)
        watermarks := s.watermarks.insert p w } ∧
      (toPrune s p w).foldl (fun s id => s.pruneChannel w id)
        { s with channelDigests := Function.update s.channelDigests p (digestAfter s p w) } = { s with
          channels := channels
          channelContents := channelContents
          channelDigests := Function.update s.channelDigests p (digestAfter s p w) } := by
  obtain ⟨channels, channelContents, e⟩ := foldl_pruneChannel_eq w (toPrune s p w)
    { s with channelDigests := Function.update s.channelDigests p (digestAfter s p w) }
  refine ⟨channels, channelContents, ?_, e⟩
  rw [toPrune, List.foldl_map] at e
  simp only [digestAfter] at e ⊢
  simp only [Hrmp.pruneHrmp]
  rw [e]

/-- A line without messages up to a block is as it was. -/
theorem received_eq_self {w : BlockNumber} {l : Terms × Channel InboundHrmpMessage}
    (h : ∀ m ∈ l.2.queue, ¬ m.sentAt ≤ w) : received w l = l := by
  obtain ⟨t, ⟨delivered, queue⟩⟩ := l
  cases queue with
  | nil => simp [received, Channel.receiveWhile]
  | cons m queue =>
    have hm : ¬ m.sentAt ≤ w := h m List.mem_cons_self
    simp [received, Channel.receiveWhile, hm]

theorem line_receive (a : HrmpLines) (p : ParaId) (w : BlockNumber) (id : HrmpChannelId) :
    (a.apply names (.receive p w)).line id =
      if id.recipient = p then (a.line id).map (received w) else a.line id := by
  simp only [Lines.apply, Lines.receiveUpTo]
  split_ifs <;> rfl

/-- Only the channels in the digest are pruned, which are all channels with something to receive. -/
theorem Represents.prune (h : Represents host now s a) (hs : Lines.Sound names now a) (p : ParaId)
    (w : BlockNumber) :
    Represents host now (s.pruneHrmp p w) (a.apply names (.receive p w)) := by
  obtain ⟨channels, channelContents, e, e'⟩ := pruneHrmp_eq p w s
  have hasc : ∀ id l, a.line id = some l → Ascending l.2.queue := fun id l hl => hs.ascending hl
  have hholds : Holds host { s with
      channelDigests := Function.update s.channelDigests p (digestAfter s p w) } a.line :=
    ⟨h.channels, h.contents⟩
  have hpruned := hholds.foldl_pruneChannel (w := w) (nodup_toPrune s p w) hasc
  -- a line to `p` that is not in the digest has nothing to receive
  have hline : (fun id => if id ∈ toPrune s p w then (a.line id).map (received w) else a.line id) =
      (a.apply names (.receive p w)).line := by
    funext id
    rw [line_receive]
    by_cases hp : id.recipient = p
    · rw [if_pos hp]
      split_ifs with hid
      · rfl
      · rw [mem_toPrune] at hid
        cases hl : a.line id with
        | none => rfl
        | some l =>
          rw [Option.map_some, received_eq_self]
          intro m hm hw
          obtain ⟨e, he, he', hse⟩ := h.digestCovers (c := l.2) (t := l.1) hl hm
          rw [hp] at he
          exact hid ⟨hp, e, he, he' ▸ hw, hse⟩
    · rw [if_neg hp, if_neg fun hid => hp (mem_toPrune.mp hid).1]
  rw [hline, e'] at hpruned
  rw [e]
  have hsome : ∀ id, ((a.apply names (.receive p w)).line id).isSome ↔ (a.line id).isSome := by
    intro id
    rw [line_receive]
    split_ifs
    · rw [Option.isSome_map]
    · rfl
  have hdig : ∀ {q e}, e ∈ Function.update s.channelDigests p (digestAfter s p w) q →
      e ∈ s.channelDigests q := by
    intro q e he
    by_cases hq : q = p
    · subst hq
      rw [Function.update_self] at he
      exact List.mem_of_mem_filter he
    · rwa [Function.update_of_ne hq] at he
  refine ⟨h.requests, h.requestsNodup, h.mem_requests, h.closes, h.closesNodup, h.mem_closes,
    fun q => ?_, hpruned.channels, hpruned.contents, fun q r => ?_, fun q r => ?_, fun q => ?_,
    fun he => h.digestPast (hdig he), fun he => h.digestNodup (hdig he), fun {id t c m} hl hm => ?_⟩
  · by_cases hq : q = p
    · rw [hq, Lines.received_receive]; exact StorageMap.get_insert_self
    · rw [Lines.received_receive_of_ne hq, StorageMap.get_insert_of_ne hq]; exact h.watermarks q
  · rw [hsome]; exact h.ingress q r
  · rw [hsome]; exact h.egress q r
  · by_cases hq : q = p
    · subst hq
      simp only [Function.update_self]
      exact (h.digestSorted q).filter _
    · simp only [Function.update_of_ne hq]
      exact h.digestSorted q
  · rw [line_receive] at hl
    by_cases hp : id.recipient = p
    · rw [if_pos hp] at hl
      obtain ⟨l, hl', he⟩ := Option.map_eq_some_iff.mp hl
      have hq : c.queue = l.2.queue.filter fun m => ¬ m.sentAt ≤ w := by
        rw [← queue_received (hasc id l hl'), he]
      rw [hq, List.mem_filter, decide_eq_true_eq] at hm
      obtain ⟨e, he, he', hse⟩ := h.digestCovers (c := l.2) (t := l.1) hl' hm.1
      rw [hp] at he
      refine ⟨e, ?_, he', hse⟩
      simp only [hp, Function.update_self, digestAfter, List.mem_filter, decide_eq_true_eq]
      exact ⟨he, he' ▸ hm.2⟩
    · rw [if_neg hp] at hl
      simp only [Function.update_of_ne hp]
      exact h.digestCovers hl hm

/-! ## Sending -/

section Digest

variable {digest : List (BlockNumber × List ParaId)} {sender : ParaId}

/-- A sender is noted in a new entry, or in the last one, which is then of this block. -/
theorem noteInDigest_cases (sender : ParaId) (hs : digest.Pairwise fun e e' => e.1 < e'.1)
    (hp : ∀ e ∈ digest, e.1 ≤ now) :
    ((∀ e ∈ digest, e.1 < now) ∧ Hrmp.noteInDigest now sender digest = digest ++ [(now, [sender])]) ∨
      ∃ init d, digest = init ++ [(now, d)] ∧
        Hrmp.noteInDigest now sender digest = init ++ [(now, d ++ [sender])] := by
  rcases List.eq_nil_or_concat digest with rfl | ⟨init, ⟨n, d⟩, rfl⟩
  · exact .inl ⟨by simp, rfl⟩
  · by_cases hn : n = now
    · subst hn
      exact .inr ⟨init, d, List.concat_eq_append, by simp [Hrmp.noteInDigest]⟩
    · have hlt : n < now := lt_of_le_of_ne (hp (n, d) (by simp)) hn
      refine .inl ⟨fun e he => ?_, by simp [Hrmp.noteInDigest, hn]⟩
      rw [List.concat_eq_append, List.mem_append, List.mem_singleton] at he
      rcases he with he | rfl
      · rw [List.concat_eq_append, List.pairwise_append] at hs
        exact (hs.2.2 e he (n, d) (by simp)).trans hlt
      · exact hlt

theorem sorted_noteInDigest (hs : digest.Pairwise fun e e' => e.1 < e'.1)
    (hp : ∀ e ∈ digest, e.1 ≤ now) :
    (Hrmp.noteInDigest now sender digest).Pairwise fun e e' => e.1 < e'.1 := by
  rcases noteInDigest_cases sender hs hp with ⟨hlt, e⟩ | ⟨init, d, rfl, e⟩
  · rw [e, List.pairwise_append]
    exact ⟨hs, List.pairwise_singleton .., by simpa using hlt⟩
  · rw [e]
    rw [List.pairwise_append] at hs ⊢
    exact ⟨hs.1, List.pairwise_singleton .., by simpa using hs.2.2⟩

/-- An entry after a sender was noted is an old one, or that of this block with the sender at its
end. -/
theorem mem_noteInDigest {e : BlockNumber × List ParaId}
    (he : e ∈ Hrmp.noteInDigest now sender digest) :
    e ∈ digest ∨ e = (now, [sender]) ∨ ∃ d, (now, d) ∈ digest ∧ e = (now, d ++ [sender]) := by
  rcases List.eq_nil_or_concat digest with rfl | ⟨init, ⟨n, d⟩, rfl⟩
  · exact .inr (.inl (List.mem_singleton.mp he))
  · by_cases hn : n = now
    · subst hn
      simp only [Hrmp.noteInDigest, List.concat_eq_append, List.getLast?_append_of_ne_nil,
        ne_eq, List.cons_ne_self, not_false_eq_true, List.getLast?_singleton, if_true,
        List.dropLast_concat, List.mem_append, List.mem_singleton] at he ⊢
      rcases he with he | he
      · exact .inl (.inl he)
      · exact .inr (.inr ⟨d, .inr rfl, he⟩)
    · simp only [Hrmp.noteInDigest, List.concat_eq_append, List.getLast?_append_of_ne_nil,
        ne_eq, List.cons_ne_self, not_false_eq_true, List.getLast?_singleton, if_neg hn,
        List.mem_append, List.mem_singleton] at he ⊢
      rcases he with he | he
      · exact .inl he
      · exact .inr (.inl he)

/-- What was noted stays noted. -/
theorem noted_noteInDigest (sender : ParaId) (hs : digest.Pairwise fun e e' => e.1 < e'.1)
    (hp : ∀ e ∈ digest, e.1 ≤ now)
    {e : BlockNumber × List ParaId} (he : e ∈ digest) {q : ParaId} (hq : q ∈ e.2) :
    ∃ e' ∈ Hrmp.noteInDigest now sender digest, e'.1 = e.1 ∧ q ∈ e'.2 := by
  rcases noteInDigest_cases sender hs hp with ⟨hlt, e'⟩ | ⟨init, d, rfl, e'⟩
  · exact ⟨e, by rw [e']; simp [he], rfl, hq⟩
  · rw [e']
    rcases List.mem_append.mp he with he | he
    · exact ⟨e, by simp [he], rfl, hq⟩
    · cases List.mem_singleton.mp he
      exact ⟨(now, d ++ [sender]), by simp, rfl, by simp [hq]⟩

theorem self_mem_noteInDigest (hs : digest.Pairwise fun e e' => e.1 < e'.1)
    (hp : ∀ e ∈ digest, e.1 ≤ now) :
    ∃ e ∈ Hrmp.noteInDigest now sender digest, e.1 = now ∧ sender ∈ e.2 := by
  rcases noteInDigest_cases sender hs hp with ⟨hlt, e'⟩ | ⟨init, d, rfl, e'⟩
  · exact ⟨(now, [sender]), by rw [e']; simp, rfl, by simp⟩
  · exact ⟨(now, d ++ [sender]), by rw [e']; simp, rfl, by simp⟩

end Digest

theorem mqcHead_snoc (ms : List InboundHrmpMessage) (m : InboundHrmpMessage) :
    mqcHead host (ms ++ [m]) = some (Hrmp.mqcLink host ((mqcHead host ms).getD zeroHash) m) := by
  rw [mqcHead, if_neg (by simp), chainHead_snoc, mqcHead]
  split_ifs with h
  · rw [h]; rfl
  · rfl

theorem dataSize_snoc (q : List InboundHrmpMessage) (m : InboundHrmpMessage) :
    Hrmp.dataSize (q ++ [m]) = Hrmp.dataSize q + m.data.length := by
  simp [Hrmp.dataSize]

/-- A para has sent nothing to a recipient in this block. -/
def Silent (now : BlockNumber) (s : Impl.Relay.Hrmp) (id : HrmpChannelId) : Prop :=
  ∀ e ∈ s.channelDigests id.recipient, e.1 = now → id.sender ∉ e.2

/-- One message is queued, or dropped if its channel is not open. -/
theorem Represents.queueMessage (h : Represents host now s a) {sender : ParaId}
    {m : OutboundHrmpMessage} (hd : Silent now s ⟨sender, m.recipient⟩) :
    Represents host now (s.queueMessage host now sender m)
      (a.apply names (.send ⟨sender, m.recipient⟩ ⟨now, m.data⟩)) := by
  set id : HrmpChannelId := ⟨sender, m.recipient⟩ with hid
  set inbound : InboundHrmpMessage := ⟨now, m.data⟩ with hin
  cases hl : a.line id with
  | none =>
    have hc : s.channels.get id = none := by rw [h.channels, hl]; rfl
    have e : s.queueMessage host now sender m = s := by
      simp only [Hrmp.queueMessage, ← hid, hc]
    rwa [e, Lines.send_of_line_eq_none hl]
  | some l =>
    have hc : s.channels.get id = some (toChannel host l) := by rw [h.channels, hl]; rfl
    have hch : { toChannel host l with
        msgCount := (toChannel host l).msgCount + 1
        totalSize := (toChannel host l).totalSize + UInt32.ofNat inbound.data.length
        mqcHead := some (Hrmp.mqcLink host ((toChannel host l).mqcHead.getD zeroHash) inbound) } =
          toChannel host (l.1, l.2.send [inbound]) := by
      have hq : (l.2.send [inbound]).queue = l.2.queue ++ [inbound] := rfl
      simp only [toChannel, Channel.sent_send, mqcHead_snoc, hq, List.length_append,
        List.length_singleton, dataSize_snoc, UInt32.ofNat_add]
      rfl
    have e : s.queueMessage host now sender m = { s with
        channels := s.channels.insert id (toChannel host (l.1, l.2.send [inbound]))
        channelContents := s.channelContents.insert id (l.2.queue ++ [inbound])
        channelDigests := Function.update s.channelDigests m.recipient
          (Hrmp.noteInDigest now sender (s.channelDigests m.recipient)) } := by
      simp only [Hrmp.queueMessage, ← hid, hc, h.contents_eq (t := l.1) (c := l.2) hl, ← hin]
      rw [← hch]
    have hline : ∀ id', (a.apply names (.send id inbound)).line id' =
        if id' = id then some (l.1, l.2.send [inbound]) else a.line id' := by
      intro id'
      split_ifs with he
      · rw [he, Lines.line_send, hl]; rfl
      · exact Lines.line_send_of_ne he
    have hsome : ∀ id', ((a.apply names (.send id inbound)).line id').isSome ↔
        (a.line id').isSome := by
      intro id'
      rw [hline]
      split_ifs with he
      · simp [he, hl]
      · rfl
    have hsort := h.digestSorted m.recipient
    have hpast := fun e he => h.digestPast (p := m.recipient) (e := e) he
    rw [e]
    refine ⟨h.requests, h.requestsNodup, h.mem_requests, h.closes, h.closesNodup, h.mem_closes,
      h.watermarks, fun id' => ?_, fun id' => ?_, fun p q => ?_, fun p q => ?_, fun p => ?_,
      fun {p e} he => ?_, fun {p e} he => ?_, fun {id' t c m'} hl' hm' => ?_⟩
    · rw [hline, StorageMap.get_insert]
      split_ifs with he
      · rfl
      · exact h.channels id'
    · rw [hline, StorageMap.get_insert]
      split_ifs with he
      · simp [toContents, Channel.send]
      · exact h.contents id'
    · rw [hsome]; exact h.ingress p q
    · rw [hsome]; exact h.egress p q
    · by_cases hp : p = m.recipient
      · subst hp
        simp only [Function.update_self]
        exact sorted_noteInDigest hsort hpast
      · simp only [Function.update_of_ne hp]
        exact h.digestSorted p
    · by_cases hp : p = m.recipient
      · subst hp
        simp only [Function.update_self] at he
        rcases mem_noteInDigest he with he | rfl | ⟨d, -, rfl⟩
        · exact hpast e he
        · exact le_rfl
        · exact le_rfl
      · simp only [Function.update_of_ne hp] at he
        exact h.digestPast he
    · by_cases hp : p = m.recipient
      · subst hp
        simp only [Function.update_self] at he
        rcases mem_noteInDigest he with he | rfl | ⟨d, hmem, rfl⟩
        · exact h.digestNodup he
        · simp
        · have hd' : d.Nodup := (h.digestNodup hmem).2
          refine ⟨by simp, List.nodup_append.mpr ⟨hd', by simp, ?_⟩⟩
          rintro q hq _ hq' rfl
          cases List.mem_singleton.mp hq'
          exact hd (now, d) hmem rfl hq
      · simp only [Function.update_of_ne hp] at he
        exact h.digestNodup he
    · rw [hline] at hl'
      by_cases hp : id'.recipient = m.recipient
      · simp only [hp, Function.update_self]
        split_ifs at hl' with he
        · cases hl'
          subst he
          rcases List.mem_append.mp hm' with hm' | hm'
          · obtain ⟨e, he, he', hse⟩ := h.digestCovers (t := l.1) (c := l.2) hl hm'
            obtain ⟨e₁, he₁, he₁', hse₁⟩ := noted_noteInDigest sender hsort hpast he hse
            exact ⟨e₁, he₁, he₁'.trans he', hse₁⟩
          · cases List.mem_singleton.mp hm'
            exact self_mem_noteInDigest hsort hpast
        · obtain ⟨e, he, he', hse⟩ := h.digestCovers hl' hm'
          obtain ⟨e₁, he₁, he₁', hse₁⟩ :=
            noted_noteInDigest sender hsort hpast (hp ▸ he) hse
          exact ⟨e₁, he₁, he₁'.trans he', hse₁⟩
      · simp only [Function.update_of_ne hp]
        rw [if_neg fun he => hp (by rw [he])] at hl'
        exact h.digestCovers hl' hm'

/-- The messages of a candidate, in block `now`. -/
def sends (now : BlockNumber) (sender : ParaId) (msgs : List OutboundHrmpMessage) : List HrmpOp :=
  msgs.map fun m => .send ⟨sender, m.recipient⟩ ⟨now, m.data⟩

theorem channelDigests_queueMessage (host : Host) (now : BlockNumber) (sender : ParaId)
    (s : Impl.Relay.Hrmp) (m : OutboundHrmpMessage) {p : ParaId} (hp : p ≠ m.recipient) :
    (s.queueMessage host now sender m).channelDigests p = s.channelDigests p := by
  simp only [Hrmp.queueMessage]
  cases s.channels.get ⟨sender, m.recipient⟩ with
  | none => rfl
  | some channel => simp only [Function.update_of_ne hp]

/-- A queued message leaves requests, indexes and watermarks alone. -/
theorem queueMessage_eq (host : Host) (now : BlockNumber) (sender : ParaId) (s : Impl.Relay.Hrmp)
    (m : OutboundHrmpMessage) : ∃ channels channelContents channelDigests,
      s.queueMessage host now sender m = { s with
        channels := channels
        channelContents := channelContents
        channelDigests := channelDigests } := by
  simp only [Hrmp.queueMessage]
  cases s.channels.get ⟨sender, m.recipient⟩ <;> exact ⟨_, _, _, rfl⟩

theorem queueOutboundHrmp_eq (host : Host) (now : BlockNumber) (sender : ParaId)
    (msgs : List OutboundHrmpMessage) (s : Impl.Relay.Hrmp) : ∃ channels channelContents channelDigests,
      s.queueOutboundHrmp host now sender msgs = { s with
        channels := channels
        channelContents := channelContents
        channelDigests := channelDigests } := by
  induction msgs generalizing s with
  | nil => exact ⟨_, _, _, rfl⟩
  | cons m msgs ih =>
    obtain ⟨c, cc, d, e⟩ := queueMessage_eq host now sender s m
    obtain ⟨c', cc', d', e'⟩ := ih (s.queueMessage host now sender m)
    refine ⟨c', cc', d', ?_⟩
    rw [e] at e'
    simpa only [Hrmp.queueOutboundHrmp, List.foldl_cons, e] using e'

theorem Silent.prune {id : HrmpChannelId} (h : Silent now s id) (p : ParaId) (w : BlockNumber) :
    Silent now (s.pruneHrmp p w) id := by
  obtain ⟨channels, channelContents, e, -⟩ := pruneHrmp_eq p w s
  intro e' he'
  rw [e] at he'
  by_cases hp : id.recipient = p
  · simp only [hp, Function.update_self] at he'
    exact h e' (hp ▸ List.mem_of_mem_filter he')
  · simp only [Function.update_of_ne hp] at he'
    exact h e' he'

/-- A message of another para is not noted as this one's. -/
theorem Silent.queueMessage {id : HrmpChannelId} (h : Silent now s id) {sender : ParaId}
    (hne : id.sender ≠ sender) (m : OutboundHrmpMessage) :
    Silent now (s.queueMessage host now sender m) id := by
  intro e he hn
  simp only [Hrmp.queueMessage] at he
  cases hc : s.channels.get ⟨sender, m.recipient⟩ with
  | none => rw [hc] at he; exact h e he hn
  | some channel =>
    simp only [hc] at he
    by_cases hr : id.recipient = m.recipient
    · simp only [hr, Function.update_self] at he
      rcases mem_noteInDigest he with he | rfl | ⟨d, hd, rfl⟩
      · exact h e (hr ▸ he) hn
      · simpa using hne
      · have := h (now, d) (hr ▸ hd) rfl
        simp [this, hne]
    · simp only [Function.update_of_ne hr] at he
      exact h e he hn

theorem Silent.queue {id : HrmpChannelId} (h : Silent now s id) {sender : ParaId}
    (hne : id.sender ≠ sender) (msgs : List OutboundHrmpMessage) :
    Silent now (s.queueOutboundHrmp host now sender msgs) id := by
  induction msgs generalizing s with
  | nil => exact h
  | cons m msgs ih => exact ih (h.queueMessage hne m)

/-- The messages of a candidate, one for each recipient at most, are sent. -/
theorem Represents.queue (h : Represents host now s a) {sender : ParaId}
    {msgs : List OutboundHrmpMessage} (hn : (msgs.map OutboundHrmpMessage.recipient).Nodup)
    (hd : ∀ m ∈ msgs, Silent now s ⟨sender, m.recipient⟩) :
    Represents host now (s.queueOutboundHrmp host now sender msgs)
      (a.applyAll names (sends now sender msgs)) := by
  induction msgs generalizing s a with
  | nil => exact h
  | cons m msgs ih =>
    rw [List.map_cons, List.nodup_cons] at hn
    refine ih (h.queueMessage (hd m List.mem_cons_self)) hn.2 fun m' hm' e he => ?_
    have hne : m'.recipient ≠ m.recipient := fun heq =>
      hn.1 (heq ▸ List.mem_map_of_mem hm')
    rw [channelDigests_queueMessage _ _ _ _ _ hne] at he
    exact hd m' (List.mem_cons_of_mem _ hm') e he

end SIM.Proof.Hrmp
