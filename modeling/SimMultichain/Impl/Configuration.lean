import SimMultichain.Impl.Xcm

/-!
# The relay chain's configuration

`HostConfiguration`, as far as the messaging pallets and the consistency check
read it, and the `configuration` pallet: the active configuration, and the pending
ones with the sessions they are for. A change is scheduled two sessions ahead; a
session change makes the last configuration that is due the active one.

Block numbers and session indices are numbers here: neither reaches `2³²`.
-/

namespace SIM.Impl.Relay

abbrev BlockNumber := Nat
abbrev SessionIndex := Nat
abbrev Balance := Nat

structure HostConfiguration where
  maxCodeSize : UInt32
  maxHeadDataSize : UInt32
  maxUpwardQueueCount : UInt32
  maxUpwardQueueSize : UInt32
  maxUpwardMessageSize : UInt32
  maxUpwardMessageNumPerCandidate : UInt32
  hrmpMaxMessageNumPerCandidate : UInt32
  validationUpgradeDelay : BlockNumber
  maxPovSize : UInt32
  maxDownwardMessageSize : UInt32
  umpServiceTotalWeight : Weight
  hrmpMaxParachainOutboundChannels : UInt32
  hrmpMaxParathreadOutboundChannels : UInt32
  hrmpSenderDeposit : Balance
  hrmpRecipientDeposit : Balance
  hrmpChannelMaxCapacity : UInt32
  hrmpChannelMaxTotalSize : UInt32
  hrmpMaxParachainInboundChannels : UInt32
  hrmpMaxParathreadInboundChannels : UInt32
  hrmpChannelMaxMessageSize : UInt32
  groupRotationFrequency : BlockNumber
  chainAvailabilityPeriod : BlockNumber
  threadAvailabilityPeriod : BlockNumber
  noShowSlots : UInt32
  umpMaxIndividualWeight : Weight
  minimumValidationUpgradeDelay : BlockNumber
  deriving DecidableEq

inductive InconsistentError where
  | zeroGroupRotationFrequency
  | zeroChainAvailabilityPeriod
  | zeroThreadAvailabilityPeriod
  | zeroNoShowSlots
  | maxCodeSizeExceedHardLimit (maxCodeSize : UInt32)
  | maxHeadDataSizeExceedHardLimit (maxHeadDataSize : UInt32)
  | maxPovSizeExceedHardLimit (maxPovSize : UInt32)
  | minimumValidationUpgradeDelayLessThanChainAvailabilityPeriod
      (minimumValidationUpgradeDelay chainAvailabilityPeriod : BlockNumber)
  | minimumValidationUpgradeDelayLessThanThreadAvailabilityPeriod
      (minimumValidationUpgradeDelay threadAvailabilityPeriod : BlockNumber)
  | validationUpgradeDelayIsTooLow (validationUpgradeDelay : BlockNumber)
  | maxUpwardMessageSizeExceeded (maxMessageSize : UInt32)
  | maxHrmpOutboundChannelsExceeded
  | maxHrmpInboundChannelsExceeded
  deriving DecidableEq

/-- `MAX_CODE_SIZE` -/
def maxCodeSize : UInt32 := 3 * 1024 * 1024
/-- `MAX_HEAD_DATA_SIZE` -/
def maxHeadDataSize : UInt32 := 1 * 1024 * 1024
/-- `MAX_POV_SIZE` -/
def maxPovSize : UInt32 := 5 * 1024 * 1024
/-- `MAX_UPWARD_MESSAGE_SIZE_BOUND` -/
def maxUpwardMessageSizeBound : UInt32 := 50 * 1024
/-- `HRMP_MAX_INBOUND_CHANNELS_BOUND` -/
def hrmpMaxInboundChannelsBound : UInt32 := 128
/-- `HRMP_MAX_OUTBOUND_CHANNELS_BOUND` -/
def hrmpMaxOutboundChannelsBound : UInt32 := 128

namespace HostConfiguration

variable (self : HostConfiguration)

/-- The limits on channels of parathreads are not among those checked. -/
def checkConsistency : Except InconsistentError Unit := do
  if self.groupRotationFrequency = 0 then throw .zeroGroupRotationFrequency
  if self.chainAvailabilityPeriod = 0 then throw .zeroChainAvailabilityPeriod
  if self.threadAvailabilityPeriod = 0 then throw .zeroThreadAvailabilityPeriod
  if self.noShowSlots = 0 then throw .zeroNoShowSlots
  if self.maxCodeSize > Relay.maxCodeSize then
    throw (.maxCodeSizeExceedHardLimit self.maxCodeSize)
  if self.maxHeadDataSize > Relay.maxHeadDataSize then
    throw (.maxHeadDataSizeExceedHardLimit self.maxHeadDataSize)
  if self.maxPovSize > Relay.maxPovSize then
    throw (.maxPovSizeExceedHardLimit self.maxPovSize)
  if self.minimumValidationUpgradeDelay ≤ self.chainAvailabilityPeriod then
    throw (.minimumValidationUpgradeDelayLessThanChainAvailabilityPeriod
      self.minimumValidationUpgradeDelay self.chainAvailabilityPeriod)
  else if self.minimumValidationUpgradeDelay ≤ self.threadAvailabilityPeriod then
    throw (.minimumValidationUpgradeDelayLessThanThreadAvailabilityPeriod
      self.minimumValidationUpgradeDelay self.threadAvailabilityPeriod)
  if self.validationUpgradeDelay ≤ 1 then
    throw (.validationUpgradeDelayIsTooLow self.validationUpgradeDelay)
  if self.maxUpwardMessageSize > maxUpwardMessageSizeBound then
    throw (.maxUpwardMessageSizeExceeded self.maxUpwardMessageSize)
  if self.hrmpMaxParachainOutboundChannels > hrmpMaxOutboundChannelsBound then
    throw .maxHrmpOutboundChannelsExceeded
  if self.hrmpMaxParachainInboundChannels > hrmpMaxInboundChannelsBound then
    throw .maxHrmpInboundChannelsExceeded

/-- `check_consistency().is_ok()` -/
def consistent : Bool := self.checkConsistency.isOk

end HostConfiguration

/-- `default_parachains_host_configuration` of the node's chain specifications. -/
def defaultParachainsHostConfiguration : HostConfiguration where
  validationUpgradeDelay := 2
  maxCodeSize := maxCodeSize
  maxPovSize := maxPovSize
  maxHeadDataSize := 32 * 1024
  groupRotationFrequency := 20
  chainAvailabilityPeriod := 4
  threadAvailabilityPeriod := 4
  maxUpwardQueueCount := 8
  maxUpwardQueueSize := 1024 * 1024
  maxDownwardMessageSize := 1024 * 1024
  umpServiceTotalWeight := 100000000000
  maxUpwardMessageSize := 50 * 1024
  maxUpwardMessageNumPerCandidate := 5
  hrmpSenderDeposit := 0
  hrmpRecipientDeposit := 0
  hrmpChannelMaxCapacity := 8
  hrmpChannelMaxTotalSize := 8 * 1024
  hrmpMaxParachainInboundChannels := 4
  hrmpMaxParathreadInboundChannels := 4
  hrmpChannelMaxMessageSize := 1024 * 1024
  hrmpMaxParachainOutboundChannels := 4
  hrmpMaxParathreadOutboundChannels := 4
  hrmpMaxMessageNumPerCandidate := 5
  noShowSlots := 2
  umpMaxIndividualWeight := 20 * 1000000000
  minimumValidationUpgradeDelay := 5

/-! ## The pallet -/

/-- `SESSION_DELAY` -/
def sessionDelay : SessionIndex := 2

/-- `shared::scheduled_session` -/
def scheduledSession (sessionIndex : SessionIndex) : SessionIndex := sessionIndex + sessionDelay

structure Configuration where
  activeConfig : HostConfiguration
  pendingConfigs : List (SessionIndex × HostConfiguration)
  bypassConsistencyCheck : Bool

namespace Configuration

inductive Error where
  | invalidNewValue
  deriving DecidableEq

/-- The storage a chain starts from; an inconsistent configuration stops the node. -/
def build (config : HostConfiguration) : Option Configuration :=
  if config.consistent then some ⟨config, [], false⟩ else none

/-- `if let Some((_, config)) = iter_mut().find(|(at, _)| at >= scheduled_session)`: replace the
configuration of the first entry from a session on, or append one. -/
def replaceFrom (session : SessionIndex) (config : HostConfiguration) :
    List (SessionIndex × HostConfiguration) → List (SessionIndex × HostConfiguration)
  | [] => [(session, config)]
  | (applyAtSession, c) :: rest =>
    if session ≤ applyAtSession then (applyAtSession, config) :: rest
    else (applyAtSession, c) :: replaceFrom session config rest

/-- The configuration an update starts from. -/
def baseConfig (c : Configuration) : HostConfiguration :=
  (c.pendingConfigs.getLast?.map Prod.snd).getD c.activeConfig

/-- `schedule_config_update`, which every setter of the pallet calls with the assignment of one
member. -/
def scheduleConfigUpdate (c : Configuration) (sessionIndex : SessionIndex)
    (updater : HostConfiguration → HostConfiguration) : Except Error Configuration :=
  let newConfig := updater c.baseConfig
  -- an update of an inconsistent configuration may leave it inconsistent
  if !c.bypassConsistencyCheck && !newConfig.consistent && c.baseConfig.consistent then
    .error .invalidNewValue
  else
    .ok { c with
      pendingConfigs := replaceFrom (scheduledSession sessionIndex) newConfig c.pendingConfigs }

/-- `initializer_on_new_session`: the last configuration that is due becomes active. -/
def initializerOnNewSession (c : Configuration) (sessionIndex : SessionIndex) : Configuration :=
  let pastAndPresent := c.pendingConfigs.filter fun p => p.1 ≤ sessionIndex
  let future := c.pendingConfigs.filter fun p => ¬ p.1 ≤ sessionIndex
  { c with
    activeConfig := (pastAndPresent.getLast?.map Prod.snd).getD c.activeConfig
    pendingConfigs := future }

end Configuration

end SIM.Impl.Relay
