import Mathlib
import SimMultichain.Impl.Executor

/-!
# What the executor processes

A program carries the programs of its `SetErrorHandler` and `SetAppendix`
instructions (`Carries`); the programs that an instruction sends onward are not
among them. Whatever the environment answers, the executor processes only
instructions of the message and of the programs it carries at any depth
(`mayExecute_of_processed`), and it comes to an end (`executor_halts`).
-/

namespace SIM.Proof

open SIM.Impl

/-- `q` is the program of an error handler or appendix that `p` sets. -/
def Carries (p q : Xcm) : Prop := .setErrorHandler q ∈ p ∨ .setAppendix q ∈ p

/-- The instructions that may be executed for a message: its own and those of the programs it
carries, at any depth. -/
def MayExecute (message : Xcm) (i : Instruction) : Prop :=
  ∃ p, Relation.ReflTransGen Carries message p ∧ i ∈ p

theorem MayExecute.errorHandler {message p : Xcm} (h : MayExecute message (.setErrorHandler p))
    {i : Instruction} (hi : i ∈ p) : MayExecute message i := by
  obtain ⟨q, hq, hm⟩ := h
  exact ⟨p, hq.tail (.inl hm), hi⟩

theorem MayExecute.appendix {message p : Xcm} (h : MayExecute message (.setAppendix p))
    {i : Instruction} (hi : i ∈ p) : MayExecute message i := by
  obtain ⟨q, hq, hm⟩ := h
  exact ⟨p, hq.tail (.inr hm), hi⟩

/-! ## Steps -/

/-- What processing an instruction does to the registers. -/
inductive Processes (vm : Vm) : Instruction → Vm → Prop where
  | errorHandler (p : Xcm) : Processes vm (.setErrorHandler p) { vm with errorHandler := p }
  | appendix (p : Xcm) : Processes vm (.setAppendix p) { vm with appendix := p }
  | other (i : Instruction) (error : Option (UInt32 × XcmError)) :
    Processes vm i { vm with error := error }

theorem processInstruction_ok {vm vm' : Vm} {answer : Except XcmError Unit} {i : Instruction}
    (h : vm.processInstruction answer i = .ok vm') : Processes vm i vm' := by
  have hsame : (answer.map fun _ => vm) = .ok vm' → Processes vm i vm' := by
    intro h
    cases answer with
    | error e => cases h
    | ok u => cases h; exact .other i vm.error
  cases i with
  | setErrorHandler p =>
    simp only [Vm.processInstruction] at h
    split at h <;> cases h
    exact .errorHandler p
  | setAppendix p =>
    simp only [Vm.processInstruction] at h
    split at h <;> cases h
    exact .appendix p
  | clearError => cases h; exact .other _ none
  | refundSurplus => cases h; exact .other _ vm.error
  | trap | exchangeAsset | hrmpNewChannelOpenRequest | hrmpChannelAccepted | hrmpChannelClosing =>
    cases h
  | _ => exact hsame h

/-- A step at the end of a message does nothing, and another one processes the next instruction,
and then goes on or recovers from its error. -/
inductive VmStep (vm : Vm) : Option Instruction → Vm → Prop where
  | halted (h : vm.message = []) : VmStep vm none vm
  | advance {i : Instruction} {rest : Xcm} {vm' : Vm} (h : vm.message = i :: rest)
      (processes : Processes vm i vm') : VmStep vm (some i) (vm'.advance rest)
  | recover {i : Instruction} {rest : Xcm} (h : vm.message = i :: rest) (e : XcmError) :
    VmStep vm (some i) (vm.recover e)

theorem executor_step (vm : Vm) (answer : Except XcmError Unit) :
    VmStep vm (executor.entry vm answer).output (executor.next vm answer) := by
  simp only [Machine.entry, Machine.next, executor]
  split
  · rename_i h; exact .halted h
  · rename_i i rest h
    split
    · rename_i e _; exact .recover h e
    · rename_i vm' h'; exact .advance h (processInstruction_ok h')

/-! ## What is processed -/

/-- All that the registers hold may be executed for the message. -/
structure Within (message : Xcm) (vm : Vm) : Prop where
  program {i : Instruction} : i ∈ vm.message → MayExecute message i
  errorHandler {i : Instruction} : i ∈ vm.errorHandler → MayExecute message i
  appendix {i : Instruction} : i ∈ vm.appendix → MayExecute message i

namespace Within

variable {message : Xcm} {vm vm' : Vm}

theorem new (message : Xcm) : Within message (.new message) :=
  ⟨fun hi => ⟨message, .refl, hi⟩, nofun, nofun⟩

theorem processes (h : Within message vm) {i : Instruction} (hi : MayExecute message i)
    (hp : Processes vm i vm') : Within message vm' := by
  cases hp with
  | errorHandler p => exact ⟨h.program, hi.errorHandler, h.appendix⟩
  | appendix p => exact ⟨h.program, h.errorHandler, hi.appendix⟩
  | other _ error => exact ⟨h.program, h.errorHandler, h.appendix⟩

theorem advance (h : Within message vm) {rest : Xcm} (hr : ∀ {i}, i ∈ rest → MayExecute message i) :
    Within message (vm.advance rest) := by
  cases rest with
  | nil => exact ⟨h.appendix, nofun, nofun⟩
  | cons i rest => exact ⟨hr, h.errorHandler, h.appendix⟩

theorem recover (h : Within message vm) (e : XcmError) : Within message (vm.recover e) := by
  simp only [Vm.recover]
  split
  · exact ⟨h.appendix, nofun, nofun⟩
  · exact ⟨h.errorHandler, nofun, h.appendix⟩

theorem step (h : Within message vm) {o : Option Instruction} (hs : VmStep vm o vm') :
    Within message vm' := by
  cases hs with
  | halted _ => exact h
  | advance hm hp =>
    have hi : MayExecute message _ := h.program (by rw [hm]; exact List.mem_cons_self)
    exact (h.processes hi hp).advance fun hr => h.program (by rw [hm]; exact List.mem_cons_of_mem _ hr)
  | recover _ e => exact h.recover e

end Within

/-- The instruction that a step processes is the next one. -/
theorem VmStep.processed {vm vm' : Vm} {i : Instruction} (hs : VmStep vm (some i) vm') :
    i ∈ vm.message := by
  cases hs with
  | advance hm _ => rw [hm]; exact List.mem_cons_self
  | recover hm _ => rw [hm]; exact List.mem_cons_self

theorem within_run (message : Xcm) (answers : List (Except XcmError Unit)) :
    Within message (executor.run (.new message) answers) :=
  executor.invariant (fun _ vm => Within message vm) (fun _ => True) (.new message)
    (fun _ vm answer _ hvm => hvm.step (executor_step vm answer)) fun _ _ => trivial

/-- Whatever the environment answers, an instruction that is processed for a message is one that
may be executed for it. -/
theorem mayExecute_of_processed {message : Xcm} {answers : List (Except XcmError Unit)}
    {i : Instruction} (h : i ∈ processed (.new message) answers) : MayExecute message i := by
  obtain ⟨e, he, ho⟩ := List.mem_filterMap.mp h
  obtain ⟨ps, answer, qs, -, rfl⟩ := executor.mem_trace.mp he
  have hs := executor_step (executor.run (.new message) ps) answer
  rw [ho] at hs
  exact (within_run message ps).program hs.processed

/-! ## Termination -/

mutual

/-- The instructions of an instruction and of the programs it carries. -/
def instructionSize : Instruction → Nat
  | .setErrorHandler xcm | .setAppendix xcm => xcmSize xcm + 1
  | _ => 1

/-- The instructions of a program and of the programs it carries. -/
def xcmSize : List Instruction → Nat
  | [] => 0
  | i :: rest => instructionSize i + xcmSize rest

end

theorem instructionSize_pos (i : Instruction) : 1 ≤ instructionSize i := by
  cases i <;> simp [instructionSize]

/-- The instructions that the registers hold, until the executor halts. -/
def vmSize (vm : Vm) : Nat :=
  match vm.message with
  | [] => 0
  | message => xcmSize message + xcmSize vm.errorHandler + xcmSize vm.appendix

theorem vmSize_le (vm : Vm) :
    vmSize vm ≤ xcmSize vm.message + xcmSize vm.errorHandler + xcmSize vm.appendix := by
  unfold vmSize
  split
  · exact Nat.zero_le _
  · exact Nat.le_refl _

theorem vmSize_cons {vm : Vm} {i : Instruction} {rest : Xcm} (h : vm.message = i :: rest) :
    vmSize vm = instructionSize i + xcmSize rest + xcmSize vm.errorHandler + xcmSize vm.appendix := by
  simp only [vmSize, h, xcmSize]

/-- A register takes a program from the instruction that sets it. -/
theorem Processes.size {vm vm' : Vm} {i : Instruction} (h : Processes vm i vm') :
    xcmSize vm'.errorHandler + xcmSize vm'.appendix + 1 ≤
      instructionSize i + xcmSize vm.errorHandler + xcmSize vm.appendix := by
  cases h with
  | errorHandler p => simp only [instructionSize]; omega
  | appendix p => simp only [instructionSize]; omega
  | other _ error => have := instructionSize_pos i; simp only; omega

theorem VmStep.size {vm vm' : Vm} {o : Option Instruction} (hs : VmStep vm o vm') :
    vmSize vm' ≤ vmSize vm - 1 := by
  -- an instruction is used up, and what it carries takes the place of what its register held
  cases hs with
  | halted h => simp [vmSize, h]
  | @advance i rest vm' h hp =>
    have hle := vmSize_le (vm'.advance rest)
    have hsize := hp.size
    rw [vmSize_cons h]
    cases rest with
    | nil => simp only [Vm.advance, xcmSize] at hle ⊢; omega
    | cons j rest => simp only [Vm.advance] at hle ⊢; omega
  | @recover i rest h e =>
    have hle := vmSize_le (vm.recover e)
    have hpos := instructionSize_pos i
    rw [vmSize_cons h]
    cases hh : vm.errorHandler with
    | nil => simp only [Vm.recover, hh, xcmSize] at hle ⊢; omega
    | cons j handler => simp only [Vm.recover, hh, xcmSize] at hle ⊢; omega

/-- The executor halts: after as many steps as the message and the programs it carries have
instructions, whatever the environment answers. -/
theorem executor_halts (message : Xcm) (answers : List (Except XcmError Unit))
    (h : xcmSize message ≤ answers.length) : (executor.run (.new message) answers).message = [] := by
  have hrun := executor.run_le_sub vmSize (fun vm a => (executor_step vm a).size) (.new message) answers
  have hnew : vmSize (.new message) ≤ xcmSize message := vmSize_le (.new message)
  cases hm : (executor.run (.new message) answers).message with
  | nil => rfl
  | cons i rest =>
    have hpos := instructionSize_pos i
    rw [vmSize_cons hm] at hrun
    omega

end SIM.Proof
