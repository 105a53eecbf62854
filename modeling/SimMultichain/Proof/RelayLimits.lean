import SimMultichain.Proof.RelayRuns

/-!
# The limits of channels

A candidate's messages are checked against the limits of their channels when it is backed, with
counters that wrap around at `2³²`, and are queued when it is included, in a later block. `Limited`
carries the check from the one to the other: as long as a candidate waits, its channels have room
for its messages, since only its own para sends on them. The counters of a channel then are the
true numbers, and stay within the limits (`limits_of_reachable`).

Three things are left to the surroundings (`limitsEnv`): that limits are configured so that the sums
that are checked stay below `2³²`, that messages are shorter than `2³²`, and that root does not force
channels open while candidates wait, for a channel that is closed and opened again with other
limits does not have the room that was checked for.
-/

namespace SIM.Proof.Relay

open SIM.Impl (ParaId Hash)
open SIM.Impl.Relay
open SIM.Proof.Hrmp
open SIM.Spec (Lines LineOp)
open SIM.Spec.Lines (Continues AllTerms)

/-- Limits whose sums do not wrap around. -/
structure Bounded (t : Terms) : Prop where
  capacity_pos : 0 < t.maxCapacity.toNat
  capacity_lt : t.maxCapacity.toNat + 1 < 2 ^ 32
  size_lt : t.maxTotalSize.toNat + t.maxMessageSize.toNat < 2 ^ 32

structure BoundedConfig (config : HostConfiguration) : Prop where
  capacity_lt : config.hrmpChannelMaxCapacity.toNat + 1 < 2 ^ 32
  size_lt : config.hrmpChannelMaxTotalSize.toNat + config.hrmpChannelMaxMessageSize.toNat < 2 ^ 32

/-- A line has room for `n` more messages of together `size` bytes. -/
structure HasRoom (l : Terms × Channel InboundHrmpMessage) (n size : Nat) : Prop where
  count : l.2.queue.length + n ≤ l.1.maxCapacity.toNat
  total : Hrmp.dataSize l.2.queue + size ≤ l.1.maxTotalSize.toNat

/-- What limits need of the surroundings. -/
def limitsEnv : Env where
  genesis config _ := BoundedConfig config
  step e := BoundedConfig e.before.config ∧
    (∀ para c, e.input = .backed para c → ∀ m ∈ c.horizontalMessages, m.data.length < 2 ^ 32) ∧
    ((∃ canReserve, e.input = .hrmpCall canReserve .root .forceProcessHrmpOpen) →
      e.before.pendingAvailability = .empty)

/-- The limits of all lines hold, and there is room for what waits to be sent. -/
structure Limited (s : State) (a : HrmpLines) : Prop where
  terms : AllTerms (fun _ t => Bounded t) a
  lines {id l} : a.line id = some l →
    HasRoom l 0 0 ∧ ∀ m ∈ l.2.queue, m.data.length ≤ l.1.maxMessageSize.toNat
  pending {p c m l} : s.pendingAvailability.get p = some c → m ∈ c.commitments.horizontalMessages →
    a.line ⟨p, m.recipient⟩ = some l →
      HasRoom l 1 m.data.length ∧ m.data.length ≤ l.1.maxMessageSize.toNat

variable {host : Host} {s s' : State} {a : HrmpLines} {i : Input}

/-! ## Sizes -/

theorem dataSize_le_of_sublist {q q' : List InboundHrmpMessage} (h : q.Sublist q') :
    Hrmp.dataSize q ≤ Hrmp.dataSize q' :=
  (h.map fun m : InboundHrmpMessage => m.data.length).sum_le_sum fun _ _ => Nat.zero_le _

/-- A queue that lost messages has the same room. -/
theorem HasRoom.of_sublist {t : Terms} {c c' : Channel InboundHrmpMessage} {n size : Nat}
    (h : HasRoom (t, c) n size) (hq : c'.queue.Sublist c.queue) : HasRoom (t, c') n size where
  count := (Nat.add_le_add_right hq.length_le n).trans h.count
  total := (Nat.add_le_add_right (dataSize_le_of_sublist hq) size).trans h.total

/-- The sum of two numbers below a limit, as the code computes it. -/
theorem toNat_ofNat_add {n m : Nat} (h : n + m < 2 ^ 32) :
    (UInt32.ofNat n + UInt32.ofNat m).toNat = n + m := by
  rw [← UInt32.ofNat_add, UInt32.toNat_ofNat_of_lt' h]

/-- The room that a check of a message found. -/
theorem hasRoom_of_check {l : Terms × Channel InboundHrmpMessage} (hb : Bounded l.1)
    (hr : HasRoom l 0 0) {size : Nat} (hs : size < 2 ^ 32)
    (hm : UInt32.ofNat size ≤ l.1.maxMessageSize)
    (ht : (toChannel host l).totalSize + UInt32.ofNat size ≤ l.1.maxTotalSize)
    (hc : (toChannel host l).msgCount + 1 ≤ l.1.maxCapacity) :
    HasRoom l 1 size ∧ size ≤ l.1.maxMessageSize.toNat := by
  have hcount := hr.count
  have htotal := hr.total
  have hcap := hb.capacity_lt
  have hsize := hb.size_lt
  rw [UInt32.le_iff_toNat_le, UInt32.toNat_ofNat_of_lt' hs] at hm
  rw [UInt32.le_iff_toNat_le] at ht hc
  have ht' : (UInt32.ofNat (Hrmp.dataSize l.2.queue) + UInt32.ofNat size).toNat ≤
    l.1.maxTotalSize.toNat := ht
  have hc' : (UInt32.ofNat l.2.queue.length + UInt32.ofNat 1).toNat ≤ l.1.maxCapacity.toNat := hc
  rw [toNat_ofNat_add (by omega)] at ht' hc'
  exact ⟨⟨hc', ht'⟩, hm⟩

/-- What an accepted message was checked for. -/
theorem checkOutboundLoop_limits {s : Hrmp} {sender : ParaId} {idx : Nat} {last : Option ParaId}
    {msgs : List OutboundHrmpMessage} (h : (s.checkOutboundLoop sender idx last msgs).isOk = true)
    {m : OutboundHrmpMessage} (hm : m ∈ msgs) {ch : HrmpChannel}
    (hc : s.channels.get ⟨sender, m.recipient⟩ = some ch) :
    UInt32.ofNat m.data.length ≤ ch.maxMessageSize ∧
      ch.totalSize + UInt32.ofNat m.data.length ≤ ch.maxTotalSize ∧
      ch.msgCount + 1 ≤ ch.maxCapacity := by
  induction msgs generalizing idx last with
  | nil => cases hm
  | cons m' msgs ih =>
    simp only [Hrmp.checkOutboundLoop] at h
    split_ifs at h
    · cases h
    · split at h
      · cases h
      · rename_i ch' hc'
        split_ifs at h with h₁ h₂ h₃
        · cases h
        · cases h
        · cases h
        · rcases List.mem_cons.mp hm with rfl | hm
          · rw [hc] at hc'
            cases hc'
            exact ⟨UInt32.not_lt.mp h₁, UInt32.not_lt.mp h₂, UInt32.not_lt.mp h₃⟩
          · exact ih h hm

/-! ## Moves and inclusions -/

theorem Quiet.not_isMessage {op : HrmpOp} (h : Quiet s s' op) : ¬ op.IsMessage := by
  cases op <;> first | exact id | exact h.elim

theorem Limited.move (h : Limited s a) (hc : Core host s a) {ops : List HrmpOp}
    (ho : MoveOps host i s s' a ops) (he : limitsEnv.step ((relay host).entry s i)) :
    Limited s' (a.applyAll names ops) := by
  obtain ⟨hconf, hlen, hforce⟩ := he
  have hline : ∀ {id l}, (a.applyAll names ops).line id = some l → a.line id = some l ∨
      l.2 = .start [] ∧ ∃ admitted, .connect admitted ∈ ops :=
    Lines.line_applyAll_of_not_isMessage fun op hop => (ho.quiet op hop).not_isMessage
  refine ⟨h.terms.applyAll (fun x t hm => ?_) (fun x complete t hm hb => ?_), fun {id l} hl => ?_,
    fun {p c m l} hp hm hl => ?_⟩
  · obtain ⟨capacity, size, hcan, rfl⟩ := ho.quiet _ hm
    have h₁ := UInt32.le_iff_toNat_le.mp hcan.capacity_le
    have h₂ := UInt32.le_iff_toNat_le.mp hcan.size_le
    have h₃ := hconf.capacity_lt
    have h₄ := hconf.size_lt
    refine ⟨UInt32.lt_iff_toNat_lt.mp hcan.capacity_pos, ?_, ?_⟩
    · exact (Nat.succ_le_succ h₁).trans_lt h₃
    · exact (Nat.add_le_add_left h₂ _).trans_lt h₄
  · obtain rfl : complete = withDeposit s.config := ho.quiet _ hm
    exact ⟨hb.capacity_pos, hb.capacity_lt, hb.size_lt⟩
  · rcases hline hl with hl | ⟨hl, -⟩
    · exact h.lines hl
    · refine ⟨⟨?_, ?_⟩, ?_⟩ <;> rw [hl] <;> simp [Channel.start, Hrmp.dataSize]
  · rcases hline hl with hl | ⟨-, hopen⟩
    · rcases ho.pending hp with hp | ⟨-, hi, hback⟩
      · exact h.pending hp hm hl
      · -- a candidate that was just backed
        have hck := hback.outbound
        unfold Hrmp.checkOutboundHrmp at hck
        split_ifs at hck
        · cases hck
        · have hch : s.hrmp.channels.get ⟨p, m.recipient⟩ = some (toChannel host l) := by
            rw [hc.rep.channels, hl]; rfl
          obtain ⟨h₁, h₂, h₃⟩ := checkOutboundLoop_limits hck hm hch
          exact hasRoom_of_check (h.terms.line hl) (h.lines hl).1 (hlen p c.commitments hi m hm) h₁ h₂ h₃
    · rcases ho.opens hopen with he | ⟨he, hi⟩
      · rw [he] at hp; cases hp
      · rw [he, show s.pendingAvailability = .empty from hforce hi] at hp; cases hp

/-- At most one of the messages of a candidate goes to a recipient. -/
theorem outbound_cases (now : BlockNumber) (para : ParaId) {msgs : List OutboundHrmpMessage}
    (hn : (msgs.map OutboundHrmpMessage.recipient).Nodup) (id : HrmpChannelId) :
    outbound now para msgs id = [] ∨ ∃ m ∈ msgs, id = ⟨para, m.recipient⟩ ∧
      outbound now para msgs id = [⟨now, m.data⟩] := by
  induction msgs with
  | nil => exact .inl rfl
  | cons m msgs ih =>
    rw [List.map_cons, List.nodup_cons] at hn
    by_cases hid : HrmpChannelId.mk para m.recipient = id
    · have hnil : outbound now para msgs id = [] := by
        refine List.map_eq_nil_iff.mpr (List.filter_eq_nil_iff.mpr fun m' hm' => ?_)
        rw [decide_eq_true_eq, ← hid]
        intro he
        have hr : m'.recipient = m.recipient := congrArg HrmpChannelId.recipient he
        exact hn.1 (hr ▸ List.mem_map_of_mem hm')
      refine .inr ⟨m, List.mem_cons_self, hid.symm, ?_⟩
      have e : outbound now para (m :: msgs) id = ⟨now, m.data⟩ :: outbound now para msgs id := by
        simp [outbound, hid]
      rw [e, hnil]
    · have e : outbound now para (m :: msgs) id = outbound now para msgs id := by
        simp [outbound, hid]
      rw [e]
      rcases ih hn.2 with hnone | ⟨m', hm', h⟩
      · exact .inl hnone
      · exact .inr ⟨m', List.mem_cons_of_mem _ hm', h⟩

theorem isMessage_inclusionOps {now : BlockNumber} {para : ParaId} {c : CandidateCommitments} :
    ∀ op ∈ inclusionOps now para c, op.IsMessage := by
  intro op hop
  simp only [inclusionOps, sends, List.mem_cons, List.mem_map] at hop
  rcases hop with rfl | ⟨m, -, rfl⟩ <;> trivial

theorem Limited.included (h : Limited s a) (hinv : Invariant host s a) {para : ParaId}
    {c : CandidatePendingAvailability} (hp : s.pendingAvailability.get para = some c)
    (hb : c.backedInNumber < s.blockNumber) :
    Limited (includedState host s para c.commitments)
      (a.applyAll names (inclusionOps s.blockNumber para c.commitments)) := by
  obtain ⟨-, hcont⟩ := hinv.included hp hb
  -- an open line was open, and what waits on it waited or is sent now
  have hline : ∀ {id l'}, (a.applyAll names (inclusionOps s.blockNumber para c.commitments)).line id =
      some l' → ∃ l, a.line id = some l ∧ l'.1 = l.1 ∧
        l'.2.queue.Sublist
          (l.2.queue ++ outbound s.blockNumber para c.commitments.horizontalMessages id) := by
    intro id l' hl'
    obtain ⟨l, hl⟩ := Option.isSome_iff_exists.mp (Lines.isSome_line_applyAll_of_isMessage
      isMessage_inclusionOps (Option.isSome_iff_exists.mpr ⟨l', hl'⟩))
    obtain ⟨ht, -, hq⟩ := (hcont id).line hl hl'
    exact ⟨l, hl, ht, by rw [hq]; exact List.filter_sublist⟩
  refine ⟨h.terms.applyAll (fun x t hm => ?_) (fun x f t hm => ?_), fun {id l'} hl' => ?_,
    fun {q c' m l'} hq hm hl' => ?_⟩
  · exact absurd (isMessage_inclusionOps _ hm) id
  · exact absurd (isMessage_inclusionOps _ hm) id
  · obtain ⟨t', ch'⟩ := l'
    obtain ⟨⟨t, ch⟩, hl, rfl, hsub⟩ := hline hl'
    obtain ⟨hroom, hsize⟩ := h.lines hl
    rcases outbound_cases s.blockNumber para (hinv.waiting.recipients hp) id with
      ho | ⟨m, hm, rfl, ho⟩
    · rw [ho, List.append_nil] at hsub
      exact ⟨hroom.of_sublist hsub, fun m hm => hsize m (hsub.subset hm)⟩
    · rw [ho] at hsub
      obtain ⟨hroom', hsize'⟩ := h.pending hp hm hl
      refine ⟨⟨?_, ?_⟩, fun m' hm' => ?_⟩
      · have := hsub.length_le
        rw [List.length_append] at this
        exact this.trans hroom'.count
      · have := dataSize_le_of_sublist hsub
        rw [dataSize_snoc] at this
        exact this.trans hroom'.total
      · rcases List.mem_append.mp (hsub.subset hm') with hm' | hm'
        · exact hsize m' hm'
        · cases List.mem_singleton.mp hm'
          exact hsize'
  · change (s.pendingAvailability.erase para).get q = some c' at hq
    rw [StorageMap.get_erase] at hq
    split_ifs at hq with hne
    obtain ⟨t', ch'⟩ := l'
    obtain ⟨⟨t, ch⟩, hl, rfl, hsub⟩ := hline hl'
    obtain ⟨hroom, hsize⟩ := h.pending hq hm hl
    rcases outbound_cases s.blockNumber para (hinv.waiting.recipients hp)
      ⟨q, m.recipient⟩ with ho | ⟨m', -, he, -⟩
    · rw [ho, List.append_nil] at hsub
      exact ⟨hroom.of_sublist hsub, hsize⟩
    · exact absurd (congrArg HrmpChannelId.sender he) hne

/-! ## Runs -/

theorem limited_beforeChannels (configuration : Configuration) (paras : Paras) :
    Limited (beforeChannels configuration paras) Lines.empty :=
  ⟨⟨(by cases ·), (by cases ·)⟩, (by cases ·), (by cases ·)⟩

theorem limited_of_reachable (h : ReachableIn limitsEnv host s) :
    ∃ a, Invariant host s a ∧ Limited s a := by
  induction h with
  | @first canReserve config paras channels g hg he =>
    obtain ⟨⟨a, hc, hl⟩, hb, hp, hconf⟩ := genesis_induction
      (P := fun s => ∃ a, Core host s a ∧ Limited s a) hg
      (fun _ _ _ _ => ⟨_, core_beforeChannels .., limited_beforeChannels ..⟩)
      fun s s' hconf hp hm ⟨a, hc, hl⟩ => by
        obtain ⟨ops, ho⟩ := hc.move hm
        exact ⟨_, ho.core, hl.move hc ho ⟨hconf ▸ he, by simp, fun _ => hp⟩⟩
    obtain ⟨ops, ho⟩ := hc.move (.newBlock rfl)
    exact ⟨_, ⟨ho.core, waiting_first hb hp⟩, hl.move hc ho ⟨hconf ▸ he, by simp, fun _ => hp⟩⟩
  | @step s h i he ih =>
    obtain ⟨a, ha, hl⟩ := ih
    rcases step_cases host s i with ⟨para, c, hi⟩ | ⟨-, hm⟩
    · rw [hi.next]
      exact ⟨_, (ha.included hi.pending hi.backed).1, hl.included ha hi.pending hi.backed⟩
    · generalize (relay host).next s i = s' at hm
      cases hm with
      | one hm =>
        obtain ⟨ops, ho, ha'⟩ := ha.move hm
        exact ⟨_, ha', hl.move ha.toCore ho he⟩
      | two hm hm' _ hr =>
        obtain ⟨dmp, hrmp, rfl⟩ := hr
        obtain ⟨ops, ho, ha'⟩ := ha.move hm
        obtain ⟨ops', ho', ha''⟩ := ha'.move hm'
        exact ⟨_, ha'', (hl.move ha.toCore ho he).move ha'.toCore ho' he⟩

/-- The counters of an open channel are the number and the size of its messages, and these are
within the limits of the channel. -/
theorem limits_of_reachable (h : ReachableIn limitsEnv host s) {id : HrmpChannelId} {ch : HrmpChannel}
    (hc : s.hrmp.channels.get id = some ch) :
    ch.msgCount.toNat = (s.hrmp.contents id).length ∧
      ch.totalSize.toNat = Hrmp.dataSize (s.hrmp.contents id) ∧
      ch.msgCount ≤ ch.maxCapacity ∧ ch.totalSize ≤ ch.maxTotalSize ∧
      ∀ m ∈ s.hrmp.contents id, m.data.length ≤ ch.maxMessageSize.toNat := by
  obtain ⟨a, ha, hl⟩ := limited_of_reachable h
  rw [ha.rep.channels] at hc
  obtain ⟨l, hline, rfl⟩ := Option.map_eq_some_iff.mp hc
  obtain ⟨hroom, hsize⟩ := hl.lines hline
  have hcount := hroom.count
  have htotal := hroom.total
  have hb := hl.terms.line hline
  have hcap := hb.capacity_lt
  have hlt := hb.size_lt
  have e₁ : (toChannel host l).msgCount.toNat = l.2.queue.length := by
    refine UInt32.toNat_ofNat_of_lt' (show _ < 2 ^ 32 from ?_)
    omega
  have e₂ : (toChannel host l).totalSize.toNat = Hrmp.dataSize l.2.queue := by
    refine UInt32.toNat_ofNat_of_lt' (show _ < 2 ^ 32 from ?_)
    omega
  rw [ha.rep.contents_eq hline]
  refine ⟨e₁, e₂, UInt32.le_iff_toNat_le.mpr ?_, UInt32.le_iff_toNat_le.mpr ?_, hsize⟩
  · rw [e₁]; exact hcount
  · rw [e₂]; exact htotal

theorem reachable_twoParas_limitsEnv :
    ReachableIn limitsEnv plainHost ((relay plainHost).run twoParasFirst oneMessage) := by
  have hconf : BoundedConfig defaultParachainsHostConfiguration := ⟨by decide, by decide⟩
  refine ReachableIn.run (.first (Option.some_get twoParas_isSome).symm hconf) fun e he => ?_
  simp only [oneMessage, Machine.trace_cons, Machine.trace_nil, List.mem_cons, List.not_mem_nil,
    or_false] at he
  rcases he with rfl | rfl | rfl
  · refine ⟨hconf, fun para c hc m hm => ?_, by simp⟩
    cases hc
    rw [List.mem_singleton.mp hm]
    decide
  · exact ⟨hconf, by simp, by simp⟩
  · exact ⟨hconf, by simp, by simp⟩

theorem limits_of_reachable_twoParas :
    ((relay plainHost).run twoParasFirst oneMessage).hrmp.channels.get ⟨2000, 2001⟩ =
        some ⟨8, 8192, 1024, 1, 1, some (Vector.replicate 32 7), 0, 0⟩ ∧
      (1 : UInt32).toNat =
        (((relay plainHost).run twoParasFirst oneMessage).hrmp.contents ⟨2000, 2001⟩).length := by
  have hc : ((relay plainHost).run twoParasFirst oneMessage).hrmp.channels.get ⟨2000, 2001⟩ =
    some ⟨8, 8192, 1024, 1, 1, some (Vector.replicate 32 7), 0, 0⟩ := by decide +kernel
  exact ⟨hc, (limits_of_reachable reachable_twoParas_limitsEnv hc).1⟩

end SIM.Proof.Relay
