import Rv64Emu.Machine.Memory

/-! The framebuffer of the `ENABLE_FRAMEBUFFER` build. Calls of SDL succeed, as
does the allocation of the pixel memory. What SDL answers is an input: the events
that it delivers, and the pitch of a texture that it has locked. What it keeps
behind a window is left out, and so is the title of the window. -/
namespace Rv64Emu

/-- What has no meaning in C++. The model stops there. -/
inductive Undefined where
  | nullContext
  | outsideMem (offset : Int) (bytes : Nat)
  | outsideTable (index : Nat)
  deriving DecidableEq, Repr

inductive FramebufferFault where
  /-- The exception `IllegalAccess`. -/
  | illegalAccess (what : String)
  | undefined (what : Undefined)
  deriving DecidableEq, Repr

abbrev FBMODE_Y8 : BitVec 32 := 0
abbrev FBMODE_INDEXED : BitVec 32 := 1
abbrev FBMODE_RGB332 : BitVec 32 := 2
abbrev FBMODE_RGB555 : BitVec 32 := 3
abbrev FBMODE_RGB24 : BitVec 32 := 4
abbrev FBMODE_RGBA32 : BitVec 32 := 5

/-- Bytes per pixel. For the modes that SDL draws directly they are those of the
format in `sdl_mode_map`, a table of the same length. -/
def mem_mult : List Nat := [1, 1, 1, 2, 3, 4]

/-- `mem_mult[mode]`, and 0 outside the table. -/
def bytesPerPixel (mode : BitVec 32) : Nat := mem_mult.getD mode.toNat 0

structure ControlInterface where
  enable : BitVec 32 := 0
  mode : BitVec 32 := 0
  resx : BitVec 32 := 0
  resy : BitVec 32 := 0
  deriving DecidableEq

namespace ControlInterface

/-- `((uint32_t*)&control)[i]`. -/
def get (control : ControlInterface) : Nat → Except FramebufferFault (BitVec 32)
  | 0 => .ok control.enable
  | 1 => .ok control.mode
  | 2 => .ok control.resx
  | 3 => .ok control.resy
  | i => .error (.undefined (.outsideTable i))

def set (control : ControlInterface) (i : Nat) (value : BitVec 32) :
    Except FramebufferFault ControlInterface :=
  match i with
  | 0 => .ok { control with enable := value }
  | 1 => .ok { control with mode := value }
  | 2 => .ok { control with resx := value }
  | 3 => .ok { control with resy := value }
  | i => .error (.undefined (.outsideTable i))

end ControlInterface

abbrev Palette := Vector (BitVec 32) 256

/-- What is drawn: pixels that are stored into a locked texture, each at its index,
or rows that SDL reads. -/
inductive Frame where
  | nothing
  | pixels (pitch : BitVec 32) (stores : List (List (BitVec 64 × BitVec 32)))
  | rows (rows : List (List Byte))

structure RenderContext where
  mem : List Byte
  memsize : BitVec 64
  mem_length : mem.length = memsize.toNat
  changed : Bool := true
  mode : BitVec 32
  resx : BitVec 32
  resy : BitVec 32
  deriving DecidableEq

namespace RenderContext

/-- The constructor. The size is a product of 32-bit numbers. -/
def new (resx resy mode : BitVec 32) : Except FramebufferFault RenderContext :=
  match mem_mult[mode.toNat]? with
  | none => .error (.undefined (.outsideTable mode.toNat))
  | some mult =>
    let memsize := (resx * resy * BitVec.ofNat 32 mult).setWidth 64
    .ok {
      mem := List.replicate memsize.toNat 0
      memsize := memsize
      mem_length := List.length_replicate
      mode := mode
      resx := resx
      resy := resy }

/-- `mem[offset]` and the bytes after it. -/
def bytesAt (c : RenderContext) (offset : Int) (bytes : Nat) :
    Except FramebufferFault (List Byte) :=
  if 0 ≤ offset ∧ offset + bytes ≤ c.memsize.toNat then
    .ok (LittleEndian.slice c.mem offset.toNat bytes)
  else .error (.undefined (.outsideMem offset bytes))

def load (c : RenderContext) (width : Width) (offset : BitVec 32) :
    Except FramebufferFault width.Value := do
  let bytes ← c.bytesAt offset.toNat width.bytes
  return BitVec.ofNat _ (LittleEndian.ofBytes bytes)

def store (c : RenderContext) (width : Width) (offset : BitVec 32) (value : width.Value) :
    Except FramebufferFault RenderContext :=
  if h : offset.toNat + width.bytes ≤ c.mem.length then
    .ok { c with
      mem := LittleEndian.splice c.mem offset.toNat (LittleEndian.toBytes width.bytes value)
      mem_length := by
        rw [LittleEndian.length_splice (by rw [LittleEndian.length_toBytes]; exact h),
          c.mem_length]
      changed := true }
  else .error (.undefined (.outsideMem offset.toNat width.bytes))

/-- The index is computed in 32 bits. -/
def pixelAt (c : RenderContext) (palette : Palette) (y x : Nat) :
    Except FramebufferFault (BitVec 32) := do
  let index := BitVec.ofNat 32 y * c.resx + BitVec.ofNat 32 x
  let mval : Byte ← c.load .byte index
  return if c.mode = FBMODE_Y8 then mval ++ mval ++ mval ++ 0xff#8 else palette.get mval.toFin

/-- `pitch * y + x * sizeof(uint32_t)`: the first product is one of 32-bit numbers,
the second one and the sum are of 64-bit numbers. -/
def texelIndex (pitch : BitVec 32) (y x : Nat) : BitVec 64 :=
  (pitch * BitVec.ofNat 32 y).setWidth 64 + (BitVec.ofNat 32 x).setWidth 64 * 4

def storeAt (c : RenderContext) (pitch : BitVec 32) (palette : Palette) (y x : Nat) :
    Except FramebufferFault (BitVec 64 × BitVec 32) := do
  let pval ← c.pixelAt palette y x
  return (texelIndex pitch y x, pval)

/-- The row that `SDL_UpdateTexture` reads; the pitch is an `int`. -/
def rowAt (c : RenderContext) (mult y : Nat) : Except FramebufferFault (List Byte) :=
  let pitch := (c.resx * BitVec.ofNat 32 mult).toInt
  c.bytesAt (y * pitch) (c.resx.toNat * mult)

/-- The modes that SDL draws directly, then those that are translated first. -/
def frame (c : RenderContext) (pitch : BitVec 32) (palette : Palette) :
    Except FramebufferFault Frame :=
  if c.mode = FBMODE_RGB332 ∨ c.mode = FBMODE_RGB555 ∨ c.mode = FBMODE_RGB24 ∨
      c.mode = FBMODE_RGBA32 then
    Frame.rows <$> (List.range c.resy.toNat).mapM (c.rowAt (bytesPerPixel c.mode))
  else if c.mode = FBMODE_Y8 ∨ c.mode = FBMODE_INDEXED then
    Frame.pixels pitch <$> (List.range c.resy.toNat).mapM fun y =>
      (List.range c.resx.toNat).mapM (c.storeAt pitch palette y)
  else .ok Frame.nothing

def redrawScreen (c : RenderContext) (pitch : BitVec 32) (palette : Palette) :
    Except FramebufferFault (RenderContext × Frame) := do
  let frame ← c.frame pitch palette
  return ({ c with changed := false }, frame)

end RenderContext

inductive FBzone where
  | INVALID | CONTROL | PALETTE | BUFFER
  deriving DecidableEq, Repr

/-- An event that `SDL_PollEvent` may deliver; keys count when they are released. -/
inductive Event where
  | keyEscape | keyQ | keyUp | keyDown | other
  deriving DecidableEq, Repr

structure Framebuffer where
  control_base : MemAddress
  framebuffer_base : MemAddress
  active_window : Bool := false
  update_freq : BitVec 64 := 1000000
  cycles_since_update : BitVec 64 := 0
  control : ControlInterface := {}
  palette : Palette := Vector.replicate 256 0
  context : Option RenderContext := none
  deriving DecidableEq

namespace Framebuffer

variable (fb : Framebuffer)

/-- `context->`. -/
def deref : Except FramebufferFault RenderContext :=
  match fb.context with
  | none => .error (.undefined .nullContext)
  | some c => .ok c

/-- The zone of an address and the offset in it; size 0 asks for the zone only. -/
def getZone (addr : MemAddress) (size : Nat) : Except FramebufferFault (FBzone × BitVec 32) :=
  if addr ≥ fb.control_base ∧ addr + BitVec.ofNat 64 size ≤ fb.control_base + 16 + 1024 then
    if (size > 0 ∧ size ≠ 4) ∨ (size = 4 ∧ addr % BitVec.ofNat 64 size ≠ 0) then
      .error (.illegalAccess "Control/palette only support aligned 4 byte access")
    else
      let pos := addr - fb.control_base
      if pos < 16 then .ok (.CONTROL, pos.setWidth 32)
      else .ok (.PALETTE, (pos - 16).setWidth 32)
  else if !fb.active_window ∧ size = 0 then .ok (.INVALID, 0)
  else if !fb.active_window ∧ size > 0 then
    .error (.illegalAccess "Framebuffer device only accessible with an active window")
  else if addr ≥ fb.framebuffer_base then do
    let c ← fb.deref
    if addr + BitVec.ofNat 64 size ≤ fb.framebuffer_base + c.memsize then
      return (.BUFFER, (addr - fb.framebuffer_base).setWidth 32)
    else return (.INVALID, 0)
  else .ok (.INVALID, 0)

def contains (addr : MemAddress) : Except FramebufferFault Bool := do
  let (zone, _) ← fb.getZone addr 0
  return zone != .INVALID

/-! ### Reads -/

/-- Every zone but the invalid one leads to the pixel memory. -/
def readMem (width : Width) (what : String) (addr : MemAddress) :
    Except FramebufferFault width.Value := do
  let (zone, offset) ← fb.getZone addr width.bytes
  if zone = .INVALID then .error (.illegalAccess what)
  else (← fb.deref).load width offset

def readByte := fb.readMem .byte "Illegal access on framebuffer"
def readHalfWord := fb.readMem .halfWord "Illegal halfword access on framebuffer"
def readDoubleWord := fb.readMem .doubleWord "Illegal doubleword access on framebuffer"

def readWord (addr : MemAddress) : Except FramebufferFault (BitVec 32) := do
  let (zone, offset) ← fb.getZone addr 4
  match zone with
  | .CONTROL => fb.control.get (offset.toNat / 4)
  | .PALETTE =>
    match fb.palette[offset.toNat / 4]? with
    | some value => return value
    | none => .error (.undefined (.outsideTable (offset.toNat / 4)))
  | .BUFFER => (← fb.deref).load .word offset
  | .INVALID => .error (.illegalAccess "Invalid word access on framebuffer")

def read (width : Width) (addr : MemAddress) : Except FramebufferFault width.Value :=
  match width with
  | .byte => fb.readByte addr
  | .halfWord => fb.readHalfWord addr
  | .word => fb.readWord addr
  | .doubleWord => fb.readDoubleWord addr

/-! ### Writes -/

/-- `context->mem[offset] = value`, which marks the context. -/
def storeMem (width : Width) (offset : BitVec 32) (value : width.Value) :
    Except FramebufferFault Framebuffer := do
  let c ← (← fb.deref).store width offset value
  return { fb with context := some c }

def writeMem (width : Width) (what : String) (addr : MemAddress) (value : width.Value) :
    Except FramebufferFault Framebuffer := do
  let (zone, offset) ← fb.getZone addr width.bytes
  if zone = .INVALID then .error (.illegalAccess what)
  else fb.storeMem width offset value

def writeByte := fb.writeMem .byte "Illegal access on framebuffer"
def writeHalfWord := fb.writeMem .halfWord "Illegal access on framebuffer"
def writeDoubleWord := fb.writeMem .doubleWord "Illegal access on framebuffer"

/-- The window is closed. -/
def closed : Framebuffer :=
  { fb with
    context := none
    active_window := false
    control := { fb.control with enable := 0 } }

/-- The device is turned on or off at the first control register. -/
def writeEnable (value : BitVec 32) : Except FramebufferFault Framebuffer :=
  if fb.active_window ∧ value = 0 then .ok fb.closed
  else if !fb.active_window ∧ value > 0 then do
    let c ← RenderContext.new fb.control.resx fb.control.resy fb.control.mode
    return { fb with
      context := some c
      active_window := true
      control := { fb.control with enable := 1 } }
  else .ok fb

def writePalette (i : Nat) (value : BitVec 32) : Except FramebufferFault Framebuffer :=
  if h : i < 256 then do
    let fb' := { fb with palette := fb.palette.set i value h }
    if fb.active_window then
      let c ← fb.deref
      return { fb' with context := some { c with changed := true } }
    else return fb'
  else .error (.undefined (.outsideTable i))

def writeWord (addr : MemAddress) (value : BitVec 32) :
    Except FramebufferFault Framebuffer := do
  let (zone, offset) ← fb.getZone addr 4
  match zone with
  | .CONTROL =>
    if offset = 0 then fb.writeEnable value
    else
      let control ← fb.control.set (offset.toNat / 4) value
      return { fb with control := control }
  | .PALETTE => fb.writePalette (offset.toNat / 4) value
  | .BUFFER => fb.storeMem .word offset value
  | .INVALID => .error (.illegalAccess "Invalid Word access on framebuffer")

def write (width : Width) (addr : MemAddress) (value : width.Value) :
    Except FramebufferFault Framebuffer :=
  match width with
  | .byte => fb.writeByte addr value
  | .halfWord => fb.writeHalfWord addr value
  | .word => fb.writeWord addr value
  | .doubleWord => fb.writeDoubleWord addr value

/-! ### Events -/

def handleEvent (fb : Framebuffer) : Event → Framebuffer
  | .keyEscape | .keyQ => if fb.active_window then fb.closed else fb
  | .keyUp => if fb.update_freq > 10 then { fb with update_freq := fb.update_freq / 10 } else fb
  | .keyDown =>
    if fb.update_freq < 10000000 then { fb with update_freq := fb.update_freq * 10 } else fb
  | .other => fb

/-- Events are polled only while there is a window. -/
def processEvents (polled : List Event) (pitch : BitVec 32) (redraw : Bool) :
    Except FramebufferFault (Framebuffer × Frame) :=
  if !fb.active_window then .ok (fb, .nothing)
  else
    let fb := polled.foldl handleEvent fb
    if !fb.active_window then .ok (fb, .nothing)
    else do
      let c ← fb.deref
      if c.changed || redraw then
        let (c, frame) ← c.redrawScreen pitch fb.palette
        return ({ fb with context := some c }, frame)
      else return (fb, .nothing)

def clockPulse (polled : List Event) (pitch : BitVec 32) :
    Except FramebufferFault (Framebuffer × Frame) := do
  if fb.cycles_since_update > fb.update_freq then
    let (fb, frame) ← fb.processEvents polled pitch true
    return ({ fb with cycles_since_update := 0 + 1 }, frame)
  else return ({ fb with cycles_since_update := fb.cycles_since_update + 1 }, .nothing)

end Framebuffer

end Rv64Emu
