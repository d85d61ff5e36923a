import Rv64Emu.Machine.Stages

/-! The pipeline driver and the main loop of the processor. -/
namespace Rv64Emu

/-- The five stage objects, in the order of `Pipeline::stages`. -/
inductive Stage where
  | instructionFetch | instructionDecode | execute | memory | writeBack
  deriving DecidableEq, Repr

namespace Stage

def propagate : Stage → Action Unit
  | .instructionFetch => InstructionFetchStage.propagate
  | .instructionDecode => modify InstructionDecodeStage.propagate
  | .execute => modify ExecuteStage.propagate
  | .memory => MemoryStage.propagate
  | .writeBack => modify WriteBackStage.propagate

def clockPulse : Stage → Action Unit
  | .instructionFetch => InstructionFetchStage.clockPulse
  | .instructionDecode => InstructionDecodeStage.clockPulse
  | .execute => modify ExecuteStage.clockPulse
  | .memory => MemoryStage.clockPulse
  | .writeBack => modify WriteBackStage.clockPulse

end Stage

namespace Pipeline

def stages : Vector Stage 5 :=
  #v[.instructionFetch, .instructionDecode, .execute, .memory, .writeBack]

/-- `propagate` of the given stages in the given order, after the reset. -/
def propagateIn (order : List Stage) : Action Unit := do
  modify fun s => { s with controlSignals := {} }
  order.forM Stage.propagate

def clockPulseIn (order : List Stage) : Action Unit := order.forM Stage.clockPulse

def propagate : Action Unit := do
  let s ← get
  if !s.pipelining then
    modify fun s => { s with controlSignals := {} }
    (stages.get s.currentStage).propagate
  else propagateIn stages.toList

def clockPulse : Action Unit := do
  let s ← get
  if !s.pipelining then
    (stages.get s.currentStage).clockPulse
    modify fun s => { s with currentStage := s.currentStage + 1 }
  else clockPulseIn stages.toList

end Pipeline

/-- What the loader hands to the processor: the memories of the image in
section order, and the entry point. -/
structure Program where
  memories : List Memory
  entrypoint : MemAddress

namespace Processor

def boot (program : Program) (pipelining : Bool) (registers : Registers) : Processor :=
  { regfile := { registers := registers }
    bus := ((MemoryBus.mk (program.memories.map Client.memory) 0 0).addClient
      (.serial { base := 0x200 })).addClient (.sysStatus { base := 0x270 })
    pc := program.entrypoint
    pipelining := pipelining }

def initRegister (s : Processor) (regnum : BitVec 8) (value : RegValue) :
    Except Exception Processor := do
  let regnum ← RegisterFile.checkRegNumber regnum
  return { s with regfile :=
    { s.regfile with registers := s.regfile.registers.writeRegister regnum value } }

def shouldHalt (s : Processor) : Bool := s.bus.clients.shouldHalt

/-- The body of the loop in `run`. -/
def cycle : Action Unit := do
  modify fun s => if s.nCycles % 5 = 0 then { s with bus := s.bus.clockPulse } else s
  Pipeline.propagate
  Pipeline.clockPulse
  modify fun s => { s with nCycles := s.nCycles + 1 }

inductive Outcome where
  | running (s : Processor)
  | halted (s : Processor)
  | terminated (e : Exception) (s : Processor)
  deriving DecidableEq

/-- At most `fuel` iterations of the loop in `run`. -/
def runLoop : Nat → Processor → Outcome
  | fuel, s =>
    if s.shouldHalt then .halted s
    else match fuel with
      | 0 => .running s
      | fuel + 1 =>
        match cycle s with
        | .ok _ s' => runLoop fuel s'
        | .error e s' => .terminated e s'

/-- The return value of `run`, once the loop has ended; there is none when the
behaviour of the program is undefined. -/
def run (testMode : Bool) (fuel : Nat) (s : Processor) : Option Bool :=
  match runLoop fuel s with
  | .running _ => none
  | .halted _ => some true
  | .terminated (.testEndMarkerEncountered _) _ => some testMode
  | .terminated (.instructionFetchFailure _) _ => some testMode
  | .terminated (.outOfBounds _) _ => none
  | .terminated _ _ => some false

/-- One iteration that neither stops on the halt flag nor throws. -/
def next (s : Processor) : Option Processor :=
  if s.shouldHalt then none
  else match cycle s with
    | .ok _ s' => some s'
    | .error _ _ => none

end Processor

end Rv64Emu
