import SimMultichain.Framework.Machine
import SimMultichain.Impl.Xcm

/-!
# The XCM executor

`XcmExecutor`, as far as it decides which instructions are processed: the program
in execution and the error handler, appendix and error registers. One step
processes one instruction. What an instruction does to the holding, to the origin
and to the chain is not modelled; whether it succeeds is then the environment's
answer, an input of the step. Weights are computed where they can fail.
-/

namespace SIM.Impl

/-- The registers, and the instructions of the program in execution that are still to come. -/
structure Vm where
  message : Xcm
  index : UInt32
  errorHandler : Xcm
  appendix : Xcm
  error : Option (UInt32 × XcmError)

namespace Vm

/-- `XcmExecutor::new`, about to execute a message. -/
def new (message : Xcm) : Vm := ⟨message, 0, [], [], none⟩

/-- `XcmExecutor::process_instruction` -/
def processInstruction (vm : Vm) (answer : Except XcmError Unit) : Instruction → Except XcmError Vm
  | .setErrorHandler handler =>
    match Xcm.weight handler with
    | none => .error .weightNotComputable
    | some _ => .ok { vm with errorHandler := handler }
  | .setAppendix appendix =>
    match Xcm.weight appendix with
    | none => .error .weightNotComputable
    | some _ => .ok { vm with appendix := appendix }
  | .clearError => .ok { vm with error := none }
  | .refundSurplus => .ok vm
  | .trap code => .error (.trap code)
  | .exchangeAsset _ _ | .hrmpNewChannelOpenRequest _ _ _ | .hrmpChannelAccepted _
  | .hrmpChannelClosing _ _ _ => .error .unimplemented
  -- these act on assets, the origin, the chain or other chains
  | _ => answer.map fun _ => vm

/-- `take_error_handler().or_else(|| take_appendix())` -/
def recover (vm : Vm) (error : XcmError) : Vm :=
  match vm.errorHandler with
  | [] => ⟨vm.appendix, 0, [], [], some (vm.index, error)⟩
  | handler => ⟨handler, 0, [], vm.appendix, some (vm.index, error)⟩

/-- The next instruction, or the end of a program: the error handler is dropped and the appendix
taken. -/
def advance (vm : Vm) : Xcm → Vm
  | [] => ⟨vm.appendix, 0, [], [], vm.error⟩
  | rest => { vm with message := rest, index := vm.index + 1 }

end Vm

/-- The loops of `execute_xcm_in_credit` and `execute`, with the instruction processed. -/
def executor : Machine Vm (Except XcmError Unit) (Option Instruction) where
  step vm answer :=
    match vm.message with
    | [] => (vm, none)
    | i :: rest =>
      match vm.processInstruction answer i with
      -- the rest of the program is only weighed
      | .error e => (vm.recover e, some i)
      | .ok vm => (vm.advance rest, some i)

/-- `execute_xcm_in_credit`, up to the start of the execution. -/
def executeXcmInCredit (origin : MultiLocation) (message : Xcm) (weightLimit weightCredit : Weight) :
    Except XcmError Vm :=
  match message.weight with
  | none => .error .weightNotComputable
  | some xcmWeight =>
    if weightLimit < xcmWeight then .error (.weightLimitReached xcmWeight)
    else
      match barrier origin message xcmWeight weightCredit with
      | none => .error .barrier
      | some (message, _) => .ok (.new message)

/-- The instructions processed for a message, while the environment answers as `answers`. -/
def processed (vm : Vm) (answers : List (Except XcmError Unit)) : List Instruction :=
  (executor.trace vm answers).filterMap Entry.output

end SIM.Impl
