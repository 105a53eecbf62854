import SimMultichain.Framework.SortedVec
import SimMultichain.Impl.Configuration

/-!
# The paras of the relay chain

The `paras` pallet, as far as it decides which paras there are: the lifecycle of
every para, the queue of the changes that each session change applies, and the
list of the parachains. Whether a para's code is accepted is decided by a vote of
the validators (PVF pre-checking), which is not modelled: a registered para waits
in `onboardingVotes`, and the outcome is an input.

Only the lists that stay in ascending order are searched by halving; they are
`SortedVec`s.
-/

namespace SIM.Impl.Relay

theorem paraId_lt_iff (a b : UInt32) : a < b ↔ a ≤ b ∧ ¬ b ≤ a := by
  rw [UInt32.lt_iff_toNat_lt, UInt32.le_iff_toNat_le, UInt32.le_iff_toNat_le]
  omega

/-- The order of para ids, as a linear order. -/
scoped instance paraIdLinearOrder : LinearOrder UInt32 where
  toLE := instLEUInt32
  toLT := instLTUInt32
  le_refl := UInt32.le_refl
  le_trans _ _ _ := UInt32.le_trans
  lt_iff_le_not_ge := paraId_lt_iff
  le_antisymm _ _ := UInt32.le_antisymm
  le_total := UInt32.le_total
  toDecidableLE := UInt32.decLe

inductive ParaLifecycle where
  | onboarding
  | parathread
  | parachain
  | upgradingParathread
  | downgradingParachain
  | offboardingParathread
  | offboardingParachain
  deriving DecidableEq

namespace ParaLifecycle

def isOnboarding : ParaLifecycle → Bool
  | .onboarding => true
  | _ => false

def isParachain : ParaLifecycle → Bool
  | .parachain | .downgradingParachain | .offboardingParachain => true
  | _ => false

def isParathread : ParaLifecycle → Bool
  | .parathread | .upgradingParathread | .offboardingParathread => true
  | _ => false

def isOffboarding : ParaLifecycle → Bool
  | .offboardingParathread | .offboardingParachain => true
  | _ => false

end ParaLifecycle

/-- Without the genesis head, which plays no part in a para's lifecycle. Of the code it only matters
that it is not empty. -/
structure ParaGenesisArgs where
  validationCode : List UInt8
  parachain : Bool

/-- The storage of the pallet. `actionsQueue` reads as empty where nothing is stored. -/
structure Paras where
  paraLifecycles : StorageMap ParaId ParaLifecycle
  actionsQueue : SessionIndex → SortedVec ParaId
  upcomingParasGenesis : StorageMap ParaId ParaGenesisArgs
  parachains : SortedVec ParaId
  onboardingVotes : List ParaId

namespace Paras

inductive Error where
  | notRegistered
  | cannotOnboard
  | cannotOffboard
  | cannotUpgrade
  | cannotDowngrade
  deriving DecidableEq

variable (s : Paras)

def isValidPara (id : ParaId) : Bool :=
  match s.paraLifecycles.get id with
  | some state => !state.isOnboarding && !state.isOffboarding
  | none => false

def isParachain (id : ParaId) : Bool := (s.paraLifecycles.get id).any (·.isParachain)

def isParathread (id : ParaId) : Bool := (s.paraLifecycles.get id).any (·.isParathread)

/-- `ActionsQueue::mutate(session, |v| if let Err(i) = v.binary_search(&id) { v.insert(i, id) })` -/
def queueAction (session : SessionIndex) (id : ParaId) : Paras :=
  { s with
    actionsQueue := Function.update s.actionsQueue session ((s.actionsQueue session).insert id) }

/-- `proceed_with_onboarding` -/
def proceedWithOnboarding (sessionIndex : SessionIndex) (id : ParaId)
    (sessionsObserved : SessionIndex) : Paras :=
  s.queueAction (sessionIndex + max (sessionDelay - sessionsObserved) 1) id

/-- `schedule_para_initialize`. `fastTracked`: the code is known, or is not checked. -/
def scheduleParaInitialize (sessionIndex : SessionIndex) (id : ParaId) (genesis : ParaGenesisArgs)
    (fastTracked : Bool) : Except Error Paras :=
  if (s.paraLifecycles.get id).isSome then .error .cannotOnboard
  else if genesis.validationCode.isEmpty then .error .cannotOnboard
  else
    let s := { s with
      paraLifecycles := s.paraLifecycles.insert id .onboarding
      -- the code is stored by its hash, and an empty one is left here
      upcomingParasGenesis := s.upcomingParasGenesis.insert id { genesis with validationCode := [] } }
    -- `kick_off_pvf_check`
    if fastTracked then .ok (s.proceedWithOnboarding sessionIndex id 0)
    else .ok { s with onboardingVotes := s.onboardingVotes ++ [id] }

/-- `enact_pvf_accepted` and `enact_pvf_rejected` for the paras whose onboarding waits for a vote
that is over. -/
def concludeVote (sessionIndex : SessionIndex) (causes : List ParaId) (accepted : Bool)
    (sessionsObserved : SessionIndex) : Paras :=
  let causes := causes.filter (· ∈ s.onboardingVotes)
  let s := { s with onboardingVotes := s.onboardingVotes.filter (· ∉ causes) }
  causes.foldl (fun s id =>
    if accepted then s.proceedWithOnboarding sessionIndex id sessionsObserved
    else { s with
      upcomingParasGenesis := s.upcomingParasGenesis.erase id
      paraLifecycles := s.paraLifecycles.erase id }) s

/-- `schedule_para_cleanup`. `upgrading`: a new code of the para is about to be applied. -/
def scheduleParaCleanup (sessionIndex : SessionIndex) (id : ParaId) (upgrading : Bool) :
    Except Error Paras :=
  if upgrading then .error .cannotOffboard
  else
    match s.paraLifecycles.get id with
    | none => .ok s
    | some .parathread =>
      .ok ({ s with paraLifecycles := s.paraLifecycles.insert id .offboardingParathread }.queueAction
        (scheduledSession sessionIndex) id)
    | some .parachain =>
      .ok ({ s with paraLifecycles := s.paraLifecycles.insert id .offboardingParachain }.queueAction
        (scheduledSession sessionIndex) id)
    | some _ => .error .cannotOffboard

/-- The scheduling of a change from one stable state. -/
def scheduleTransition (sessionIndex : SessionIndex) (id : ParaId) (expected during : ParaLifecycle)
    (error : Error) : Except Error Paras :=
  match s.paraLifecycles.get id with
  | none => .error .notRegistered
  | some lifecycle =>
    if lifecycle = expected then
      .ok ({ s with paraLifecycles := s.paraLifecycles.insert id during }.queueAction
        (scheduledSession sessionIndex) id)
    else .error error

def scheduleParathreadUpgrade (sessionIndex : SessionIndex) (id : ParaId) : Except Error Paras :=
  s.scheduleTransition sessionIndex id .parathread .upgradingParathread .cannotUpgrade

def scheduleParachainDowngrade (sessionIndex : SessionIndex) (id : ParaId) : Except Error Paras :=
  s.scheduleTransition sessionIndex id .parachain .downgradingParachain .cannotDowngrade

/-- `force_queue_action` -/
def forceQueueAction (sessionIndex : SessionIndex) (id : ParaId) : Paras :=
  s.queueAction (sessionIndex + 1) id

/-- One para of `apply_actions_queue`, and whether it goes. -/
def applyAction (id : ParaId) : Paras × Bool :=
  match s.paraLifecycles.get id with
  | none | some .parathread | some .parachain => (s, false)
  | some .onboarding =>
    match s.upcomingParasGenesis.get id with
    | none => (s, false)
    | some genesis =>
      let s := { s with upcomingParasGenesis := s.upcomingParasGenesis.erase id }
      -- `initialize_para_now`
      if genesis.parachain then
        ({ s with
          parachains := s.parachains.insert id
          paraLifecycles := s.paraLifecycles.insert id .parachain }, false)
      else ({ s with paraLifecycles := s.paraLifecycles.insert id .parathread }, false)
  | some .upgradingParathread =>
    ({ s with
      parachains := s.parachains.insert id
      paraLifecycles := s.paraLifecycles.insert id .parachain }, false)
  | some .downgradingParachain =>
    ({ s with
      parachains := s.parachains.remove id
      paraLifecycles := s.paraLifecycles.insert id .parathread }, false)
  | some .offboardingParachain | some .offboardingParathread =>
    ({ s with
      parachains := s.parachains.remove id
      paraLifecycles := s.paraLifecycles.erase id }, true)

/-- The loop of `apply_actions_queue`, with the outgoing paras in order. -/
def applyActions : Paras → List ParaId → Paras × List ParaId
  | s, [] => (s, [])
  | s, id :: ids =>
    let (s, goes) := s.applyAction id
    let (s, outgoing) := applyActions s ids
    (s, if goes then id :: outgoing else outgoing)

/-- `apply_actions_queue`: the changes queued for a session, and the outgoing paras. -/
def applyActionsQueue (session : SessionIndex) : Paras × List ParaId :=
  applyActions { s with actionsQueue := Function.update s.actionsQueue session .empty }
    (s.actionsQueue session).items

end Paras

end SIM.Impl.Relay
