import SimMultichain.Impl.Frame

/-!
# XCM messages and the barrier

The XCM v2 instruction set, the weigher, and the barrier of `xcm_config.rs` that
decides which messages are executed. A `Transact` carries its call as bytes (the
decoded half of `DoubleEncoded` is a cache), so that `Xcm<Call>` and `Xcm<()>` are
one type.

`ShouldExecute` is a check that may adjust the message and take from the weight
credit. None of the checks does either before it fails, so that a failed check
returns nothing.
-/

namespace SIM.Impl

/-! ## Locations -/

inductive NetworkId where
  | any
  | named (name : List UInt8)
  | polkadot
  | kusama
  deriving DecidableEq

inductive BodyId where
  | unit
  | named (name : List UInt8)
  | index (id : UInt32)
  | executive
  | technical
  | legislative
  | judicial
  deriving DecidableEq

inductive BodyPart where
  | voice
  | members (count : UInt32)
  | fraction (nom denom : UInt32)
  | atLeastProportion (nom denom : UInt32)
  | moreThanProportion (nom denom : UInt32)
  deriving DecidableEq

inductive Junction where
  | parachain (id : ParaId)
  | accountId32 (network : NetworkId) (id : Vector UInt8 32)
  | accountIndex64 (network : NetworkId) (index : UInt64)
  | accountKey20 (network : NetworkId) (key : Vector UInt8 20)
  | palletInstance (index : UInt8)
  | generalIndex (index : BitVec 128)
  | generalKey (key : List UInt8)
  | onlyChild
  | plurality (id : BodyId) (part : BodyPart)
  deriving DecidableEq

/-- `Here`, `X1(..)` up to `X8(..)`. -/
structure Junctions where
  items : List Junction
  length_le : items.length ≤ 8
  deriving DecidableEq

structure MultiLocation where
  parents : UInt8
  interior : Junctions
  deriving DecidableEq

/-- `MultiLocation { parents: 1, interior: Here }`, the relay chain. -/
def MultiLocation.relay : MultiLocation := ⟨1, [], by decide⟩

/-- `MultiLocation { parents: 1, interior: X1(Parachain(id)) }` -/
def MultiLocation.sibling (id : ParaId) : MultiLocation := ⟨1, [.parachain id], by simp⟩

/-! ## Assets -/

inductive AssetInstance where
  | undefined
  | index (id : BitVec 128)
  | array4 (data : Vector UInt8 4)
  | array8 (data : Vector UInt8 8)
  | array16 (data : Vector UInt8 16)
  | array32 (data : Vector UInt8 32)
  | blob (data : List UInt8)

inductive AssetId where
  | concrete (location : MultiLocation)
  | abstract (name : List UInt8)

inductive Fungibility where
  | fungible (amount : BitVec 128)
  | nonFungible (inst : AssetInstance)

structure MultiAsset where
  id : AssetId
  fungibility : Fungibility

abbrev MultiAssets := List MultiAsset

inductive WildFungibility where
  | fungible
  | nonFungible

inductive WildMultiAsset where
  | all
  | allOf (id : AssetId) (fungibility : WildFungibility)

inductive MultiAssetFilter where
  | definite (assets : MultiAssets)
  | wild (assets : WildMultiAsset)

/-! ## Instructions -/

abbrev Weight := UInt64

inductive XcmError where
  | overflow
  | unimplemented
  | untrustedReserveLocation
  | untrustedTeleportLocation
  | multiLocationFull
  | multiLocationNotInvertible
  | badOrigin
  | invalidLocation
  | assetNotFound
  | failedToTransactAsset (text : String)
  | notWithdrawable
  | locationCannotHold
  | exceedsMaxMessageSize
  | destinationUnsupported
  | transport (text : String)
  | unroutable
  | unknownClaim
  | failedToDecode
  | maxWeightInvalid
  | notHoldingFees
  | tooExpensive
  | trap (code : UInt64)
  | unhandledXcmVersion
  | weightLimitReached (weight : Weight)
  | barrier
  | weightNotComputable
  deriving DecidableEq

inductive Response where
  | null
  | assets (assets : MultiAssets)
  | executionResult (result : Option (UInt32 × XcmError))
  | version (version : UInt32)

inductive WeightLimit where
  | unlimited
  | limited (weight : Weight)
  deriving DecidableEq

inductive Instruction where
  | withdrawAsset (assets : MultiAssets)
  | reserveAssetDeposited (assets : MultiAssets)
  | receiveTeleportedAsset (assets : MultiAssets)
  | queryResponse (queryId : UInt64) (response : Response) (maxWeight : UInt64)
  | transferAsset (assets : MultiAssets) (beneficiary : MultiLocation)
  | transferReserveAsset (assets : MultiAssets) (dest : MultiLocation) (xcm : List Instruction)
  | transact (originType : OriginKind) (requireWeightAtMost : UInt64) (call : List UInt8)
  | hrmpNewChannelOpenRequest (sender maxMessageSize maxCapacity : UInt32)
  | hrmpChannelAccepted (recipient : UInt32)
  | hrmpChannelClosing (initiator sender recipient : UInt32)
  | clearOrigin
  | descendOrigin (interior : Junctions)
  | reportError (queryId : UInt64) (dest : MultiLocation) (maxResponseWeight : UInt64)
  | depositAsset (assets : MultiAssetFilter) (maxAssets : UInt32) (beneficiary : MultiLocation)
  | depositReserveAsset (assets : MultiAssetFilter) (maxAssets : UInt32) (dest : MultiLocation)
      (xcm : List Instruction)
  | exchangeAsset (give : MultiAssetFilter) (receive : MultiAssets)
  | initiateReserveWithdraw (assets : MultiAssetFilter) (reserve : MultiLocation)
      (xcm : List Instruction)
  | initiateTeleport (assets : MultiAssetFilter) (dest : MultiLocation) (xcm : List Instruction)
  | queryHolding (queryId : UInt64) (dest : MultiLocation) (assets : MultiAssetFilter)
      (maxResponseWeight : UInt64)
  | buyExecution (fees : MultiAsset) (weightLimit : WeightLimit)
  | refundSurplus
  | setErrorHandler (xcm : List Instruction)
  | setAppendix (xcm : List Instruction)
  | clearError
  | claimAsset (assets : MultiAssets) (ticket : MultiLocation)
  | trap (code : UInt64)
  | subscribeVersion (queryId : UInt64) (maxResponseWeight : UInt64)
  | unsubscribeVersion

abbrev Xcm := List Instruction

/-! ## Weight -/

/-- `u64::checked_add` -/
def checkedAdd (a b : Weight) : Option Weight :=
  if a.toNat + b.toNat < 2 ^ 64 then some (a + b) else none

/-- `instrs_limit.checked_sub(message.0.len() as u32)` -/
def takeInstrs (message : Xcm) (instrsLimit : UInt32) : Option UInt32 :=
  if UInt32.ofNat message.length ≤ instrsLimit then
    some (instrsLimit - UInt32.ofNat message.length)
  else none

/-- `UnitWeightCost` -/
def unitWeightCost : Weight := 1000000000

/-- `MaxInstructions` -/
def maxInstructions : UInt32 := 100

mutual

/-- `FixedWeightBounds::instr_weight_with_limit`, with the instructions left after it. -/
def Instruction.weightWithLimit : Instruction → UInt32 → Option (Weight × UInt32)
  | .transact _ requireWeightAtMost _, instrsLimit => do
    return (← checkedAdd unitWeightCost requireWeightAtMost, instrsLimit)
  | .setErrorHandler xcm, instrsLimit | .setAppendix xcm, instrsLimit => do
    -- `weight_with_limit` of the program
    let (r, instrsLimit) ← weightLoop xcm 0 (← takeInstrs xcm instrsLimit)
    return (← checkedAdd unitWeightCost r, instrsLimit)
  | _, instrsLimit => do return (← checkedAdd unitWeightCost 0, instrsLimit)

/-- The loop of `weight_with_limit`. -/
def weightLoop : List Instruction → Weight → UInt32 → Option (Weight × UInt32)
  | [], r, instrsLimit => some (r, instrsLimit)
  | m :: ms, r, instrsLimit => do
    let (w, instrsLimit) ← m.weightWithLimit instrsLimit
    weightLoop ms (← checkedAdd r w) instrsLimit

end

/-- `FixedWeightBounds::weight` -/
def Xcm.weight (message : Xcm) : Option Weight := do
  let (r, _) ← weightLoop message 0 (← takeInstrs message maxInstructions)
  return r

/-! ## Barriers -/

/-- `ShouldExecute::should_execute` of an origin, a message, its `max_weight` and the
`weight_credit`: the message and the credit afterwards, or a refusal. -/
abbrev ShouldExecute := MultiLocation → Xcm → Weight → Weight → Option (Xcm × Weight)

def takeWeightCredit : ShouldExecute := fun _ message maxWeight weightCredit =>
  if maxWeight ≤ weightCredit then some (message, weightCredit - maxWeight) else none

/-- Instructions that put assets into the holding register. -/
def Instruction.fillsHolding : Instruction → Bool
  | .receiveTeleportedAsset _ | .withdrawAsset _ | .reserveAssetDeposited _ | .claimAsset _ _ => true
  | _ => false

/-- The `BuyExecution` after any `ClearOrigin`s must pay for `max_weight`, and pays just that. -/
def buyMaxWeight (maxWeight : Weight) : Xcm → Option Xcm
  | .clearOrigin :: rest => (buyMaxWeight maxWeight rest).map (.clearOrigin :: ·)
  | .buyExecution fees (.limited weight) :: rest =>
    if maxWeight ≤ weight then some (.buyExecution fees (.limited maxWeight) :: rest) else none
  | .buyExecution fees .unlimited :: rest => some (.buyExecution fees (.limited maxWeight) :: rest)
  | _ => none

def allowTopLevelPaidExecutionFrom (contains : MultiLocation → Bool) : ShouldExecute :=
  fun origin message maxWeight weightCredit =>
    if contains origin then
      match message with
      | [] => none
      | i :: rest =>
        if i.fillsHolding then (buyMaxWeight maxWeight rest).map fun rest => (i :: rest, weightCredit)
        else none
    else none

def allowUnpaidExecutionFrom (contains : MultiLocation → Bool) : ShouldExecute :=
  fun origin message _ weightCredit => if contains origin then some (message, weightCredit) else none

/-- `ShouldExecute` of a tuple: the first check that lets the message through. -/
def firstOf : List ShouldExecute → ShouldExecute
  | [], _, _, _, _ => none
  | check :: checks, origin, message, maxWeight, weightCredit =>
    match check origin message maxWeight weightCredit with
    | some r => some r
    | none => firstOf checks origin message maxWeight weightCredit

def denyThenTry (deny allow : ShouldExecute) : ShouldExecute :=
  fun origin message maxWeight weightCredit => do
    let (message, weightCredit) ← deny origin message maxWeight weightCredit
    allow origin message maxWeight weightCredit

/-- A reserve transfer to the relay chain: what `DenyReserveTransferToRelayChain` looks for. -/
def Instruction.reservesToRelay : Instruction → Bool
  | .initiateReserveWithdraw _ reserve _ => reserve = .relay
  | .depositReserveAsset _ _ dest _ => dest = .relay
  | .transferReserveAsset _ dest _ => dest = .relay
  | _ => false

def denyReserveTransferToRelayChain : ShouldExecute := fun _ message _ weightCredit =>
  -- a `ReserveAssetDeposited` from the relay chain is logged and let through
  if message.any Instruction.reservesToRelay then none else some (message, weightCredit)

def everything (_ : MultiLocation) : Bool := true

def parentOrParentsExecutivePlurality (location : MultiLocation) : Bool :=
  location.parents = 1 &&
    match location.interior.items with
    | [] => true
    | [.plurality .executive _] => true
    | [.parachain id] => id = 2000 || id = 3000
    | _ => false

def barrier : ShouldExecute :=
  denyThenTry denyReserveTransferToRelayChain
    (firstOf [takeWeightCredit, allowTopLevelPaidExecutionFrom everything,
      allowUnpaidExecutionFrom parentOrParentsExecutivePlurality])

end SIM.Impl
