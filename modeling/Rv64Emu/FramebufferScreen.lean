import Rv64Emu.FramebufferRuns
import Rv64Emu.Library.Mealy

/-! The framebuffer as a screen: registers, colours and the pixels of a window. What the
device reads and draws is what the screen has. -/
namespace Rv64Emu

open Outcomes

/-! ### The picture -/

/-- Row by row, in colours or in the bytes that SDL takes. -/
inductive Picture where
  | pixels (rows : List (List (BitVec 32)))
  | rows (rows : List (List Byte))
  deriving DecidableEq

/-- A pixel is a byte, but for those of RGB555, RGB24 and RGBA32. -/
def pixelBytes (mode : BitVec 32) : Nat :=
  match mode.toNat with
  | 3 => 2
  | 4 => 3
  | 5 => 4
  | _ => 1

theorem bytesPerPixel_eq {mode : BitVec 32} (h : mode.toNat < 6) :
    bytesPerPixel mode = pixelBytes mode := by
  unfold bytesPerPixel pixelBytes
  generalize mode.toNat = n at h
  revert n
  decide

/-- An open window and the bytes of its pixels. -/
structure Window where
  mode : BitVec 32
  resx : BitVec 32
  resy : BitVec 32
  bytes : Nat → Byte := fun _ => 0

namespace Window

def size (w : Window) : Nat := w.resx.toNat * w.resy.toNat * pixelBytes w.mode

def bytesFrom (w : Window) (offset n : Nat) : List Byte :=
  (List.range n).map fun i => w.bytes (offset + i)

def store (w : Window) (offset : Nat) (stored : List Byte) : Window :=
  { w with bytes := fun i =>
      if offset ≤ i ∧ i < offset + stored.length then stored.getD (i - offset) 0 else w.bytes i }

/-- A pixel of one byte is grey, or has a colour of the palette. -/
def colour (w : Window) (palette : Palette) (y x : Nat) : BitVec 32 :=
  let value := w.bytes (y * w.resx.toNat + x)
  if w.mode = 0 then value ++ value ++ value ++ 0xff#8 else palette.get value.toFin

/-- The modes whose pixels have a texture of colours. -/
def Translated (w : Window) : Prop := w.mode = 0 ∨ w.mode = 1

instance (w : Window) : Decidable w.Translated := inferInstanceAs (Decidable (_ ∨ _))

def picture (w : Window) (palette : Palette) : Picture :=
  if w.Translated then
    .pixels ((List.range w.resy.toNat).map fun y =>
      (List.range w.resx.toNat).map (w.colour palette y))
  else
    .rows ((List.range w.resy.toNat).map fun y =>
      w.bytesFrom (y * (w.resx.toNat * pixelBytes w.mode)) (w.resx.toNat * pixelBytes w.mode))

/-- A texture of the window has room for its rows, and 32 bits count its bytes. -/
structure Holds (w : Window) (pitch : BitVec 32) : Prop where
  row_le : (4 * w.resx.toNat : Nat) ≤ pitch.toInt
  bytes_le : pitch.toInt * w.resy.toNat ≤ 2 ^ 32

end Window

/-! ### What SDL shows -/

/-- The bytes of a locked texture, as far as something has been stored. -/
abbrev Texture := Nat → Option Byte

namespace Texture

def store (t : Texture) (s : BitVec 64 × BitVec 32) : Texture := fun i =>
  if s.1.toNat ≤ i ∧ i < s.1.toNat + 4 then (LittleEndian.toBytes 4 s.2)[i - s.1.toNat]? else t i

def texel (t : Texture) (index : Nat) : Option (BitVec 32) :=
  ((List.range 4).mapM fun i => t (index + i)).map fun bytes =>
    BitVec.ofNat 32 (LittleEndian.ofBytes bytes)

end Texture

/-- What SDL shows: of a texture the rows that are one pitch apart. There is nothing to
show if something has been stored outside the texture. -/
def Frame.picture (resx resy : Nat) : Frame → Option Picture
  | .nothing => none
  | .pixels pitch stores =>
    if stores.flatten.all fun s => (s.1.toNat + 4 : Nat) ≤ pitch.toInt * resy then
      let t := stores.flatten.foldl Texture.store fun _ => none
      .pixels <$> (List.range resy).mapM fun y : Nat =>
        (List.range resx).mapM fun x : Nat => t.texel (pitch.toInt * y + 4 * x).toNat
    else none
  | .rows bytes => some (.rows bytes)

/-! ### The screen -/

/-- What a guest knows of the device, and how often the window is refreshed. -/
structure Screen where
  mode : BitVec 32 := 0
  resx : BitVec 32 := 0
  resy : BitVec 32 := 0
  palette : Palette := Vector.replicate 256 0
  window : Option Window := none
  period : Nat := 1000000
  age : Nat := 0

/-- What an accepted access is to. -/
inductive Place where
  | register (i : Nat)
  | colour (i : Nat)
  | pixels (offset : Nat)

/-- What an access comes to. -/
inductive Answer where
  | value (n : Nat)
  | refused
  | undefined (what : Undefined)

namespace Screen

/-- Registers and colours are aligned words; pixels are any bytes of the window. -/
def place (s : Screen) (addr : MemAddress) (n : Nat) : Option Place :=
  if 0x800 ≤ addr.toNat ∧ addr.toNat + n ≤ 0xc10 then
    if n = 4 ∧ addr.toNat % 4 = 0 then
      if addr.toNat < 0x810 then some (.register ((addr.toNat - 0x800) / 4))
      else some (.colour ((addr.toNat - 0x810) / 4))
    else none
  else match s.window with
    | none => none
    | some w =>
      if 0x1000000 ≤ addr.toNat ∧ addr.toNat + n ≤ 0x1000000 + w.size then
        some (.pixels (addr.toNat - 0x1000000))
      else none

/-- The first register tells whether there is a window. -/
def register (s : Screen) : Nat → BitVec 32
  | 0 => if s.window.isSome then 1 else 0
  | 1 => s.mode
  | 2 => s.resx
  | _ => s.resy

def read (s : Screen) (n : Nat) : Place → Nat
  | .register i => (s.register i).toNat
  | .colour i => (s.palette[i]?.getD 0).toNat
  | .pixels offset => LittleEndian.ofBytes ((s.window.map (·.bytesFrom offset n)).getD [])

/-- A window keeps the registers that it was opened with. -/
def enable (s : Screen) (value : BitVec 32) : Screen :=
  match s.window with
  | none =>
    if value = 0 then s
    else { s with window := some { mode := s.mode, resx := s.resx, resy := s.resy } }
  | some _ => if value = 0 then { s with window := none } else s

def writeRegister (s : Screen) (value : BitVec 32) : Nat → Screen
  | 0 => s.enable value
  | 1 => { s with mode := value }
  | 2 => { s with resx := value }
  | _ => { s with resy := value }

def storePixels (s : Screen) (offset : Nat) (stored : List Byte) : Screen :=
  { s with window := s.window.map fun w => w.store offset stored }

def write (s : Screen) {width : Width} (value : width.Value) : Place → Screen
  | .register i => s.writeRegister (value.setWidth 32) i
  | .colour i => { s with palette := s.palette.setIfInBounds i (value.setWidth 32) }
  | .pixels offset => s.storePixels offset (LittleEndian.toBytes width.bytes value)

def event (s : Screen) : Event → Screen
  | .keyEscape | .keyQ => { s with window := none }
  | .keyUp => if 10 < s.period then { s with period := s.period / 10 } else s
  | .keyDown => if s.period < 10000000 then { s with period := s.period * 10 } else s
  | .other => s

/-- Without a window there are no events. -/
def poll (s : Screen) (polled : List Event) : Screen :=
  if s.window.isSome then polled.foldl event s else s

def answer (i : Input) (s : Screen) : Answer × Screen :=
  match i with
  | .access (.read width addr) =>
    match s.place addr width.bytes with
    | some p => (.value (s.read width.bytes p), s)
    | none => (.refused, s)
  | .access (.write width addr value) =>
    match s.place addr width.bytes with
    | some p => (.value 0, s.write value p)
    | none => (.refused, s)
  | .processEvents polled _ _ => (.value 0, s.poll polled)
  | .clockPulse polled _ =>
    if s.period < s.age then (.value 0, { s.poll polled with age := 1 })
    else (.value 0, { s with age := s.age + 1 })

/-- The texture of a window that is still open after the events. -/
def Textured (s : Screen) (polled : List Event) (pitch : BitVec 32) : Prop :=
  ∀ w ∈ (s.poll polled).window, w.Translated → w.Holds pitch

/-- A window is opened in a mode of the table, with less than 2^32 bytes of pixels, and
redrawn in a texture that holds it. -/
def Proper (s : Screen) : Input → Prop
  | .access (.write .word addr value) =>
    addr = 0x800 → s.window = none → value ≠ 0#32 →
      s.mode.toNat < 6 ∧ s.resx.toNat * s.resy.toNat * pixelBytes s.mode < 2 ^ 32
  | .access _ => True
  | .processEvents polled pitch _ => s.Textured polled pitch
  | .clockPulse polled pitch => s.period < s.age → s.Textured polled pitch

end Screen

/-- The device, and the picture that its window shows. -/
structure Display where
  fb : Framebuffer
  shown : Option Picture := none

namespace Display

def fault (d : Display) : FramebufferFault → Answer × Display
  | .illegalAccess _ => (.refused, d)
  | .undefined what => (.undefined what, d)

/-- The new state of the device, with what it has drawn. -/
def present (d : Display) : Except FramebufferFault (Framebuffer × Frame) → Answer × Display
  | .ok (fb, .nothing) => (.value 0, { d with fb := fb })
  | .ok (fb, frame) =>
    (.value 0, ⟨fb, fb.context.bind fun c => frame.picture c.resx.toNat c.resy.toNat⟩)
  | .error e => d.fault e

/-- An access that the bus has passed on. -/
def access (d : Display) : Access → Answer × Display
  | .read width addr =>
    match d.fb.read width addr with
    | .ok value => (.value value.toNat, d)
    | .error e => d.fault e
  | .write width addr value =>
    match d.fb.write width addr value with
    | .ok fb => (.value 0, { d with fb := fb })
    | .error e => d.fault e

/-- The bus refuses what the device does not contain. -/
def answer (i : Input) (d : Display) : Answer × Display :=
  match i with
  | .access a =>
    match d.fb.contains a.addr with
    | .ok true => d.access a
    | .ok false => (.refused, d)
    | .error e => d.fault e
  | .processEvents polled pitch redraw => d.present (d.fb.processEvents polled pitch redraw)
  | .clockPulse polled pitch => d.present (d.fb.clockPulse polled pitch)

end Display

/-! ### The texture -/

/-- A traversal that finds something everywhere. -/
theorem mapM_eq_some_map {α β : Type} {f : α → Option β} {g : α → β} {l : List α}
    (h : ∀ a ∈ l, f a = some (g a)) : l.mapM f = some (l.map g) := by
  induction l with
  | nil => rfl
  | cons a l ih =>
    obtain ⟨hhead, htail⟩ := List.forall_mem_cons.mp h
    rw [List.mapM_cons, hhead, ih htail]
    rfl

/-- Stores that agree on a byte, of which one is made or the byte was there. -/
theorem Texture.foldl_store {i : Nat} {b : Byte} {stores : List (BitVec 64 × BitVec 32)}
    {t : Texture} (hagree : ∀ s ∈ stores, s.1.toNat ≤ i ∧ i < s.1.toNat + 4 →
      (LittleEndian.toBytes 4 s.2)[i - s.1.toNat]? = some b)
    (hstored : (∃ s ∈ stores, s.1.toNat ≤ i ∧ i < s.1.toNat + 4) ∨ t i = some b) :
    stores.foldl store t i = some b := by
  induction stores generalizing t with
  | nil =>
    obtain ⟨s, hs, -⟩ | hbefore := hstored
    · cases hs
    · exact hbefore
  | cons s stores ih =>
    obtain ⟨hhead, htail⟩ := List.forall_mem_cons.mp hagree
    apply ih htail
    by_cases hcovers : s.1.toNat ≤ i ∧ i < s.1.toNat + 4
    · exact .inr ((if_pos hcovers).trans (hhead hcovers))
    · obtain ⟨s', hs', hcovers'⟩ | hbefore := hstored
      · obtain rfl | hs' := List.mem_cons.mp hs'
        · exact absurd hcovers' hcovers
        · exact .inl ⟨s', hs', hcovers'⟩
      · exact .inr ((if_neg hcovers).trans hbefore)

theorem Texture.texel_eq {t : Texture} {index : Nat} {value : BitVec 32}
    (h : ∀ i < 4, t (index + i) = (LittleEndian.toBytes 4 value)[i]?) :
    t.texel index = some value := by
  unfold texel
  have hbytes : (List.range 4).mapM (fun i => t (index + i)) =
      some (LittleEndian.toBytes 4 value) := by
    refine mapM_eq_some_map fun i hi => ?_
    have hlt : i < 4 := List.mem_range.mp hi
    rw [h i hlt, LittleEndian.getElem?_toBytes, if_pos hlt]
  rw [hbytes, Option.map_some]
  exact congrArg some (LittleEndian.ofNat_ofBytes_toBytes (n := 4) value)

namespace RenderContext

theorem toNat_texelIndex (pitch : BitVec 32) (y : Nat) {x : Nat} (hx : x < 2 ^ 32) :
    (texelIndex pitch y x).toNat = pitch.toNat * y % 2 ^ 32 + 4 * x := by
  have hrow : ((pitch * BitVec.ofNat 32 y).setWidth 64).toNat = pitch.toNat * y % 2 ^ 32 := by
    rw [BitVec.toNat_setWidth, BitVec.toNat_mul, BitVec.toNat_ofNat, Nat.mul_mod_mod]
    exact Nat.mod_eq_of_lt ((Nat.mod_lt _ (by decide)).trans (by decide))
  have hcolumn : ((BitVec.ofNat 32 x).setWidth 64 * 4).toNat = 4 * x := by
    rw [BitVec.toNat_mul, BitVec.toNat_setWidth, BitVec.toNat_ofNat]
    change x % 2 ^ 32 % 2 ^ 64 * 4 % 2 ^ 64 = _
    omega
  have hlt := Nat.mod_lt (pitch.toNat * y) (show 2 ^ 32 > 0 by decide)
  unfold texelIndex
  rw [BitVec.toNat_add, hrow, hcolumn, Nat.mod_eq_of_lt]
  omega

/-- Nothing is stored outside a texture whose rows have room for the pixels. -/
theorem texelIndex_inside {pitch resx resy : BitVec 32} (hrow : 4 * resx.toNat ≤ pitch.toNat)
    {y x : Nat} (hy : y < resy.toNat) (hx : x < resx.toNat) :
    (texelIndex pitch y x).toNat + 4 ≤ pitch.toNat * resy.toNat := by
  have hresx := resx.isLt
  have hnext := row_le pitch.toNat hy
  rw [Nat.mul_comm y] at hnext
  have hwrapped := Nat.mod_le (pitch.toNat * y) (2 ^ 32)
  rw [toNat_texelIndex pitch y (by omega)]
  omega

/-- Rows that are a multiple of 2^32 bytes apart are stored over each other. -/
theorem texelIndex_wraps {pitch : BitVec 32} {k : Nat} (h : pitch.toNat * k % 2 ^ 32 = 0)
    (y x : Nat) : texelIndex pitch (y + k) x = texelIndex pitch y x := by
  have hproduct : pitch * BitVec.ofNat 32 (y + k) = pitch * BitVec.ofNat 32 y := by
    apply BitVec.eq_of_toNat_eq
    rw [BitVec.toNat_mul, BitVec.toNat_mul, BitVec.toNat_ofNat, BitVec.toNat_ofNat,
      Nat.mul_mod_mod, Nat.mul_mod_mod, Nat.mul_add, Nat.add_mod, h, Nat.add_zero, Nat.mod_mod]
  unfold texelIndex
  rw [hproduct]

end RenderContext

namespace Window

/-- What is stored where the pixels have these colours. -/
def texels (w : Window) (pitch : BitVec 32) (colour : Nat → Nat → BitVec 32) :
    List (List (BitVec 64 × BitVec 32)) :=
  (List.range w.resy.toNat).map fun y => (List.range w.resx.toNat).map fun x =>
    (RenderContext.texelIndex pitch y x, colour y x)

theorem mem_texels {w : Window} {pitch : BitVec 32} {colour : Nat → Nat → BitVec 32}
    {s : BitVec 64 × BitVec 32} :
    s ∈ (w.texels pitch colour).flatten ↔ ∃ y < w.resy.toNat, ∃ x < w.resx.toNat,
      (RenderContext.texelIndex pitch y x, colour y x) = s := by
  simp [texels]

namespace Holds

variable {w : Window} {pitch : BitVec 32} (h : w.Holds pitch)

include h

theorem toInt_pitch : pitch.toInt = pitch.toNat := by
  have hrow := h.row_le
  have hlt := pitch.isLt
  rw [BitVec.toInt_eq_toNat_cond] at hrow ⊢
  split_ifs at hrow ⊢ <;> omega

/-- The first product does not wrap. -/
theorem toNat_texelIndex {y x : Nat} (hy : y < w.resy.toNat) (hx : x < w.resx.toNat) :
    (RenderContext.texelIndex pitch y x).toNat = pitch.toNat * y + 4 * x := by
  have hbytes := h.bytes_le
  have hrow := h.row_le
  rw [h.toInt_pitch] at hbytes hrow
  norm_cast at hbytes hrow
  have hresx := w.resx.isLt
  have hnext := RenderContext.row_le pitch.toNat hy
  rw [Nat.mul_comm y] at hnext
  rw [RenderContext.toNat_texelIndex pitch y (by omega), Nat.mod_eq_of_lt]
  omega

/-- The bytes of a pixel are stored with that pixel only. -/
theorem eq_of_covers {y x y' x' i : Nat} (hx : x < w.resx.toNat) (hx' : x' < w.resx.toNat)
    (hi : i < 4) (hle : pitch.toNat * y' + 4 * x' ≤ pitch.toNat * y + 4 * x + i)
    (hlt : pitch.toNat * y + 4 * x + i < pitch.toNat * y' + 4 * x' + 4) : y' = y ∧ x' = x := by
  have hrow := h.row_le
  rw [h.toInt_pitch] at hrow
  norm_cast at hrow
  have hsucc : ∀ {a b : Nat}, a < b → pitch.toNat * a + pitch.toNat ≤ pitch.toNat * b := by
    intro a b hab
    rw [← Nat.mul_succ]
    exact Nat.mul_le_mul_left _ hab
  obtain hbefore | rfl | hbehind := Nat.lt_trichotomy y' y
  · have hy := hsucc hbefore
    omega
  · exact ⟨rfl, by omega⟩
  · have hy := hsucc hbehind
    omega

/-- Every pixel is found where SDL looks for it. -/
theorem texel_eq (colour : Nat → Nat → BitVec 32) {y x : Nat} (hy : y < w.resy.toNat)
    (hx : x < w.resx.toNat) :
    Texture.texel ((w.texels pitch colour).flatten.foldl Texture.store fun _ => none)
      (pitch.toInt * y + 4 * x).toNat = some (colour y x) := by
  have hindex : (pitch.toInt * y + 4 * x).toNat = pitch.toNat * y + 4 * x := by
    rw [h.toInt_pitch]
    norm_cast
  rw [hindex]
  refine Texture.texel_eq fun i hi => ?_
  have hbyte : (LittleEndian.toBytes 4 (colour y x))[i]? =
      some ((colour y x).extractLsb' (8 * i) 8) := by
    rw [LittleEndian.getElem?_toBytes, if_pos hi]
  rw [hbyte]
  apply Texture.foldl_store
  · intro s hs hcovers
    obtain ⟨y', hy', x', hx', rfl⟩ := mem_texels.mp hs
    rw [h.toNat_texelIndex hy' hx'] at hcovers ⊢
    obtain ⟨rfl, rfl⟩ := h.eq_of_covers hx hx' hi hcovers.1 hcovers.2
    rw [Nat.add_sub_cancel_left, hbyte]
  · refine .inl ⟨_, mem_texels.mpr ⟨y, hy, x, hx, rfl⟩, ?_⟩
    rw [h.toNat_texelIndex hy hx]
    omega

theorem inside (colour : Nat → Nat → BitVec 32) : ((w.texels pitch colour).flatten.all fun s =>
    (s.1.toNat + 4 : Nat) ≤ pitch.toInt * w.resy.toNat) = true := by
  refine List.all_eq_true.mpr fun s hs => decide_eq_true ?_
  obtain ⟨y, hy, x, hx, rfl⟩ := mem_texels.mp hs
  have hrow := h.row_le
  rw [h.toInt_pitch] at hrow ⊢
  norm_cast at hrow ⊢
  exact RenderContext.texelIndex_inside hrow hy hx

theorem picture_eq (colour : Nat → Nat → BitVec 32) :
    (Frame.pixels pitch (w.texels pitch colour)).picture w.resx.toNat w.resy.toNat =
      some (.pixels ((List.range w.resy.toNat).map fun y =>
        (List.range w.resx.toNat).map (colour y))) := by
  unfold Frame.picture
  dsimp only
  rw [if_pos (h.inside colour), mapM_eq_some_map fun y hy => mapM_eq_some_map fun x hx =>
    h.texel_eq colour (List.mem_range.mp hy) (List.mem_range.mp hx)]
  rfl

end Holds

end Window

/-! ### The pixel memory -/

namespace RenderContext

/-- What the context stands for. -/
def window (c : RenderContext) : Window where
  mode := c.mode
  resx := c.resx
  resy := c.resy
  bytes i := c.mem.getD i 0

variable {c c' : RenderContext}

theorem size_window (h : c.Fitting) : c.window.size = c.memsize.toNat := by
  rw [h.sized.memsize_eq, bytesPerPixel_eq h.sized.mode_lt]
  rfl

theorem bytesAt_eq {offset n : Nat} (h : offset + n ≤ c.memsize.toNat) :
    c.bytesAt offset n = .ok (c.window.bytesFrom offset n) := by
  have hslice : LittleEndian.slice c.mem offset n = c.window.bytesFrom offset n := by
    apply LittleEndian.slice_eq_map
    intro i hi
    have hlt : offset + i < c.mem.length := by
      rw [c.mem_length]
      omega
    change _ = some (c.mem.getD (offset + i) 0)
    rw [List.getD_eq_getElem?_getD, List.getElem?_eq_getElem hlt, Option.getD_some]
  unfold bytesAt
  rw [if_pos (by omega), Int.toNat_natCast, hslice]

theorem load_eq {width : Width} {offset : BitVec 32}
    (h : offset.toNat + width.bytes ≤ c.memsize.toNat) :
    c.load width offset = .ok (BitVec.ofNat _
      (LittleEndian.ofBytes (c.window.bytesFrom offset.toNat width.bytes))) := by
  unfold load
  rw [bytesAt_eq h]
  rfl

/-- A store changes the bytes of its range, and marks the context. -/
theorem store_eq {width : Width} {offset : BitVec 32} (value : width.Value)
    (h : offset.toNat + width.bytes ≤ c.memsize.toNat) :
    ∃ c', c.store width offset value = .ok c' ∧ c.SameShape c' ∧ c'.changed = true ∧
      c'.window = c.window.store offset.toNat (LittleEndian.toBytes width.bytes value) := by
  have hin : offset.toNat + width.bytes ≤ c.mem.length := by
    rw [c.mem_length]
    exact h
  have hlength : offset.toNat + (LittleEndian.toBytes width.bytes value).length ≤ c.mem.length := by
    rw [LittleEndian.length_toBytes]
    exact hin
  unfold store
  rw [dif_pos hin]
  refine ⟨_, rfl, ⟨rfl, rfl, rfl, rfl⟩, rfl, ?_⟩
  unfold window Window.store
  congr 1
  funext i
  simp only [List.getD_eq_getElem?_getD]
  rw [LittleEndian.getElem?_splice hlength]
  split_ifs <;> rfl

/-- The index that the loop computes is that of the pixel. -/
theorem pixelAt_eq (palette : Palette) (h : c.Fitting) (hmode : bytesPerPixel c.mode = 1)
    {y x : Nat} (hy : y < c.resy.toNat) (hx : x < c.resx.toNat) :
    c.pixelAt palette y x = .ok (c.window.colour palette y x) := by
  obtain ⟨hindex, hin⟩ := toNat_pixelIndex h hmode hy hx
  have hload : c.load .byte (BitVec.ofNat 32 y * c.resx + BitVec.ofNat 32 x) =
      .ok (c.window.bytes (y * c.resx.toNat + x)) := by
    rw [load_eq (by rw [hindex]; exact hin), hindex]
    apply congrArg Except.ok
    apply BitVec.eq_of_toNat_eq
    change (BitVec.ofNat 8 ((c.window.bytes (y * c.resx.toNat + x)).toNat + 256 * 0)).toNat = _
    rw [Nat.mul_zero, Nat.add_zero, BitVec.toNat_ofNat, Nat.mod_eq_of_lt (BitVec.isLt _)]
    rfl
  exact congrArg (fun read : Except FramebufferFault Byte => read >>= fun mval =>
    pure (if c.mode = FBMODE_Y8 then mval ++ mval ++ mval ++ 0xff#8 else palette.get mval.toFin))
    hload

theorem storeAt_eq (pitch : BitVec 32) (palette : Palette) (h : c.Fitting)
    (hmode : bytesPerPixel c.mode = 1) {y x : Nat} (hy : y < c.resy.toNat) (hx : x < c.resx.toNat) :
    c.storeAt pitch palette y x = .ok (texelIndex pitch y x, c.window.colour palette y x) := by
  unfold storeAt
  rw [pixelAt_eq palette h hmode hy hx]
  rfl

/-- A row starts where the pitch says, over the integers. -/
theorem rowAt_eq (h : c.Fitting) {y : Nat} (hy : y < c.resy.toNat) :
    c.rowAt (bytesPerPixel c.mode) y = .ok (c.window.bytesFrom
      (y * (c.resx.toNat * bytesPerPixel c.mode)) (c.resx.toNat * bytesPerPixel c.mode)) := by
  obtain ⟨hpitch, hend⟩ := rowPitch_eq h hy
  unfold rowAt
  dsimp only
  rw [hpitch, bytesAt_eq hend]

/-- A redraw shows the picture, if the texture holds it. -/
theorem frame_eq {pitch : BitVec 32} (palette : Palette) (h : c.Fitting)
    (hholds : c.window.Translated → c.window.Holds pitch) :
    ∃ frame, c.frame pitch palette = .ok frame ∧ frame ≠ .nothing ∧
      frame.picture c.resx.toNat c.resy.toNat = some (c.window.picture palette) := by
  have hmode := h.sized.mode_lt
  unfold frame Window.picture
  by_cases htranslated : c.mode = FBMODE_Y8 ∨ c.mode = FBMODE_INDEXED
  · have hwindow : c.window.Translated := htranslated
    have hone := bytesPerPixel_of_translated htranslated
    have hdirect : ¬(c.mode = FBMODE_RGB332 ∨ c.mode = FBMODE_RGB555 ∨ c.mode = FBMODE_RGB24 ∨
        c.mode = FBMODE_RGBA32) := by
      obtain hmode | hmode := htranslated
      · rw [hmode]
        decide
      · rw [hmode]
        decide
    rw [if_neg hdirect, if_pos htranslated, if_pos hwindow]
    rw [mapM_eq_map fun y hy => mapM_eq_map fun x hx =>
      storeAt_eq pitch palette h hone (List.mem_range.mp hy) (List.mem_range.mp hx)]
    exact ⟨_, rfl, nofun, (hholds hwindow).picture_eq (c.window.colour palette)⟩
  · have hwindow : ¬c.window.Translated := htranslated
    have hdirect : c.mode = FBMODE_RGB332 ∨ c.mode = FBMODE_RGB555 ∨ c.mode = FBMODE_RGB24 ∨
        c.mode = FBMODE_RGBA32 := by
      simp only [BitVec.toNat_eq] at htranslated ⊢
      change ¬(c.mode.toNat = 0 ∨ c.mode.toNat = 1) at htranslated
      change c.mode.toNat = 2 ∨ c.mode.toNat = 3 ∨ c.mode.toNat = 4 ∨ c.mode.toNat = 5
      omega
    rw [if_pos hdirect, if_neg hwindow]
    rw [mapM_eq_map fun y hy => rowAt_eq h (List.mem_range.mp hy), bytesPerPixel_eq hmode]
    exact ⟨_, rfl, nofun, rfl⟩

end RenderContext

/-- What the device stands for. -/
def Framebuffer.screen (fb : Framebuffer) : Screen where
  mode := fb.control.mode
  resx := fb.control.resx
  resy := fb.control.resy
  palette := fb.palette
  window := fb.context.map RenderContext.window
  period := fb.update_freq.toNat
  age := fb.cycles_since_update.toNat

/-- The first control register tells whether there is a window. -/
def Framebuffer.EnableTells (fb : Framebuffer) : Prop :=
  fb.control.enable = if fb.active_window then 1 else 0

/-- The device stands for the screen, and its window shows the picture unless the
context is marked. -/
structure Displays (d : Display) (s : Screen) : Prop where
  invariant : d.fb.Invariant
  screen : d.fb.screen = s
  enable : d.fb.EnableTells
  period_le : s.period ≤ 100000000
  age_le : s.age ≤ 100000001
  shown : ∀ c ∈ d.fb.context, c.changed = false →
    d.shown = some (c.window.picture d.fb.palette)

/-! ### Places -/

namespace Framebuffer

variable {fb : Framebuffer} {addr : MemAddress}

/-- The zone and the offset that belong to a place. -/
def ZoneOf (fb : Framebuffer) (n : Nat) (zone : Except FramebufferFault (FBzone × BitVec 32)) :
    Option Place → Prop
  | some (.register i) => n = 4 ∧ i < 4 ∧ zone = .ok (.CONTROL, BitVec.ofNat 32 (4 * i))
  | some (.colour i) => n = 4 ∧ i < 256 ∧ zone = .ok (.PALETTE, BitVec.ofNat 32 (4 * i))
  | some (.pixels offset) => ∃ c ∈ fb.context,
    offset + n ≤ c.memsize.toNat ∧ zone = .ok (.BUFFER, BitVec.ofNat 32 offset)
  | none => (∃ what, zone = .error (.illegalAccess what)) ∨ ∃ offset, zone = .ok (.INVALID, offset)

theorem control_iff {n : Nat} (hwraps : addr.toNat + n < 2 ^ 64) :
    (addr ≥ 0x800 ∧ addr + BitVec.ofNat 64 n ≤ 0x800 + 16 + 1024) ↔
      0x800 ≤ addr.toNat ∧ addr.toNat + n ≤ 0xc10 := by
  rw [ge_iff_le, BitVec.le_def, BitVec.le_def, toNat_add_ofNat hwraps]
  rfl

theorem buffer_iff {n : Nat} {c : RenderContext} (hfits : c.Fitting)
    (hwraps : addr.toNat + n < 2 ^ 64) :
    addr + BitVec.ofNat 64 n ≤ 0x1000000 + c.memsize ↔
      addr.toNat + n ≤ 0x1000000 + c.window.size := by
  have hmemsize := hfits.memsize_lt
  have hlimit : (0x1000000 + c.memsize).toNat = 0x1000000 + c.memsize.toNat := by
    rw [BitVec.toNat_add]
    exact Nat.mod_eq_of_lt (by change 0x1000000 + c.memsize.toNat < _; omega)
  rw [BitVec.le_def, toNat_add_ofNat hwraps, hlimit, RenderContext.size_window hfits]

/-- An offset from a base, in 32 bits. -/
theorem narrow_sub (base : MemAddress) (hlow : base.toNat ≤ addr.toNat) :
    (addr - base).setWidth 32 = BitVec.ofNat 32 (addr.toNat - base.toNat) := by
  apply BitVec.eq_of_toNat_eq
  rw [BitVec.toNat_setWidth, BitVec.toNat_ofNat, BitVec.toNat_sub_of_le hlow]

/-- The aligned words of the first range are registers and colours. -/
theorem word_place (hzone : 0x800 ≤ addr.toNat ∧ addr.toNat + 4 ≤ 0xc10)
    (hmod : addr.toNat % 4 = 0) :
    fb.ZoneOf 4 (if addr - 0x800 < 16 then .ok (.CONTROL, (addr - 0x800).setWidth 32)
        else .ok (.PALETTE, (addr - 0x800 - 16).setWidth 32))
      (if addr.toNat < 0x810 then some (.register ((addr.toNat - 0x800) / 4))
        else some (.colour ((addr.toNat - 0x810) / 4))) := by
  have hpos : (addr - 0x800).toNat = addr.toNat - 0x800 := BitVec.toNat_sub_of_le hzone.1
  have hiff : addr - 0x800 < 16 ↔ (addr - 0x800).toNat < 16 := Iff.rfl
  by_cases hcontrol : addr.toNat < 0x810
  · have hoffset : addr.toNat - 0x800 = 4 * ((addr.toNat - 0x800) / 4) := by omega
    rw [if_pos (hiff.mpr (by omega)), if_pos hcontrol, narrow_sub 0x800 hzone.1]
    refine ⟨rfl, by omega, ?_⟩
    exact congrArg (fun k => Except.ok (FBzone.CONTROL, BitVec.ofNat 32 k)) hoffset
  · have hlow : (16 : MemAddress).toNat ≤ (addr - 0x800).toNat := by
      change 16 ≤ _
      omega
    have hoffset : addr.toNat - 0x800 - 16 = 4 * ((addr.toNat - 0x810) / 4) := by omega
    rw [if_neg (mt hiff.mp (by omega)), if_neg hcontrol, narrow_sub 16 hlow, hpos]
    refine ⟨rfl, by omega, ?_⟩
    exact congrArg (fun k => Except.ok (FBzone.PALETTE, BitVec.ofNat 32 k)) hoffset

theorem getZone_place (hinv : fb.Invariant) {n : Nat} (hn : 0 < n)
    (hwraps : addr.toNat + n < 2 ^ 64) :
    fb.ZoneOf n (fb.getZone addr n) (fb.screen.place addr n) := by
  unfold getZone Screen.place
  rw [hinv.control_base_eq, hinv.framebuffer_base_eq, hinv.window]
  by_cases hzone : 0x800 ≤ addr.toNat ∧ addr.toNat + n ≤ 0xc10
  · rw [if_pos ((control_iff hwraps).mpr hzone), if_pos hzone]
    have hrefused : ((n > 0 ∧ n ≠ 4) ∨ (n = 4 ∧ addr % BitVec.ofNat 64 n ≠ 0)) ↔
        ¬(n = 4 ∧ addr.toNat % 4 = 0) := by
      by_cases hfour : n = 4
      · subst hfour
        have hmod : addr % BitVec.ofNat 64 4 ≠ 0 ↔ addr.toNat % 4 ≠ 0 := BitVec.toNat_eq.not
        rw [hmod]
        omega
      · exact iff_of_true (.inl ⟨hn, hfour⟩) fun h => hfour h.1
    by_cases haligned : n = 4 ∧ addr.toNat % 4 = 0
    · rw [if_neg (mt hrefused.mp (not_not.mpr haligned)), if_pos haligned]
      obtain ⟨rfl, hmod⟩ := haligned
      exact word_place hzone hmod
    · rw [if_pos (hrefused.mpr haligned), if_neg haligned]
      exact .inl ⟨_, rfl⟩
  · rw [if_neg (mt (control_iff hwraps).mp hzone), if_neg hzone]
    unfold screen
    cases hc : fb.context with
    | none =>
      rw [if_neg fun h => Nat.ne_of_gt hn h.2, if_pos ⟨rfl, hn⟩]
      exact .inl ⟨_, rfl⟩
    | some c =>
      have hfits := hinv.fitting c hc
      rw [if_neg nofun, if_neg nofun]
      dsimp only [Option.map_some]
      by_cases hlow : 0x1000000 ≤ addr.toNat
      · rw [if_pos (show addr ≥ 0x1000000 from hlow), deref_of_mem hc]
        change fb.ZoneOf n (if addr + BitVec.ofNat 64 n ≤ 0x1000000 + c.memsize then
          .ok (.BUFFER, (addr - 0x1000000).setWidth 32) else .ok (.INVALID, 0)) _
        by_cases hend : addr.toNat + n ≤ 0x1000000 + c.window.size
        · rw [if_pos ((buffer_iff hfits hwraps).mpr hend), if_pos ⟨hlow, hend⟩,
            narrow_sub 0x1000000 hlow]
          refine ⟨c, hc, ?_, rfl⟩
          rw [← RenderContext.size_window hfits]
          omega
        · rw [if_neg (mt (buffer_iff hfits hwraps).mp hend), if_neg fun h => hend h.2]
          exact .inr ⟨0, rfl⟩
      · rw [if_neg (show ¬addr ≥ 0x1000000 from hlow), if_neg fun h => hlow h.1]
        exact .inr ⟨0, rfl⟩

/-- The device contains the addresses of its places. -/
theorem contains_place (hinv : fb.Invariant) {n : Nat} {p : Place}
    (hplace : fb.screen.place addr n = some p) : fb.contains addr = .ok true := by
  have hwraps : addr.toNat + 0 < 2 ^ 64 := addr.isLt
  unfold Screen.place at hplace
  unfold contains getZone
  rw [hinv.control_base_eq, hinv.framebuffer_base_eq, hinv.window]
  by_cases hzone : 0x800 ≤ addr.toNat ∧ addr.toNat + 0 ≤ 0xc10
  · have hsize : ¬((0 > 0 ∧ 0 ≠ 4) ∨ (0 = 4 ∧ addr % BitVec.ofNat 64 0 ≠ 0)) := by omega
    rw [if_pos ((control_iff hwraps).mpr hzone), if_neg hsize]
    dsimp only
    split_ifs <;> rfl
  · rw [if_neg (by omega)] at hplace
    rw [if_neg (mt (control_iff hwraps).mp hzone)]
    unfold screen at hplace
    cases hc : fb.context with
    | none =>
      rw [hc] at hplace
      cases hplace
    | some c =>
      have hfits := hinv.fitting c hc
      rw [hc] at hplace
      dsimp only [Option.map_some] at hplace
      split_ifs at hplace with hpixels
      obtain ⟨hlow, hend⟩ := hpixels
      have hin := (buffer_iff hfits hwraps).mpr (show addr.toNat + 0 ≤ _ by omega)
      rw [if_neg nofun, if_neg nofun, if_pos (show addr ≥ 0x1000000 from hlow), deref_of_mem hc]
      simp only [bind, Except.bind, if_pos hin]
      rfl

/-! ### Reads -/

theorem width_of_bytes {width : Width} (h : width.bytes = 4) : width = .word := by
  revert h
  cases width <;> decide

section

variable {width : Width} {offset : BitVec 32}

theorem read_buffer (hzone : fb.getZone addr width.bytes = .ok (.BUFFER, offset)) :
    fb.read width addr = fb.deref >>= fun c => c.load width offset := by
  cases width <;>
  · simp only [Width.bytes] at hzone
    simp only [read, readByte, readHalfWord, readWord, readDoubleWord, readMem, Width.bytes, hzone]
    rfl

theorem write_buffer (hzone : fb.getZone addr width.bytes = .ok (.BUFFER, offset))
    (value : width.Value) : fb.write width addr value = fb.storeMem width offset value := by
  cases width <;>
  · simp only [Width.bytes] at hzone
    simp only [write, writeByte, writeHalfWord, writeWord, writeDoubleWord, writeMem, Width.bytes,
      hzone]
    rfl

theorem refused_of_none (h : fb.ZoneOf width.bytes (fb.getZone addr width.bytes) none) :
    (∃ what, fb.read width addr = .error (.illegalAccess what)) ∧
      ∀ value, ∃ what, fb.write width addr value = .error (.illegalAccess what) := by
  obtain ⟨what, hzone⟩ | ⟨offset, hzone⟩ := h
  · cases width <;>
    · simp only [Width.bytes] at hzone
      simp only [read, readByte, readHalfWord, readWord, readDoubleWord, readMem, write, writeByte,
        writeHalfWord, writeWord, writeDoubleWord, writeMem, Width.bytes, hzone]
      exact ⟨⟨what, rfl⟩, fun _ => ⟨what, rfl⟩⟩
  · cases width <;>
    · simp only [Width.bytes] at hzone
      simp only [read, readByte, readHalfWord, readWord, readDoubleWord, readMem, write, writeByte,
        writeHalfWord, writeWord, writeDoubleWord, writeMem, Width.bytes, hzone]
      exact ⟨⟨_, rfl⟩, fun _ => ⟨_, rfl⟩⟩

end

theorem get_register (hinv : fb.Invariant) (henable : fb.EnableTells) {i : Nat} (hi : i < 4) :
    fb.control.get i = .ok (fb.screen.register i) := by
  match i, hi with
  | 0, _ =>
    change Except.ok fb.control.enable = .ok (if (fb.context.map _).isSome then 1 else 0)
    rw [henable, hinv.window, Option.isSome_map]
  | 1, _ | 2, _ | 3, _ => rfl

theorem toNat_index {i : Nat} (hi : i < 256) : (BitVec.ofNat 32 (4 * i)).toNat / 4 = i := by
  rw [BitVec.toNat_ofNat, Nat.mod_eq_of_lt (by omega)]
  omega

/-- A read finds what the screen has at the place. -/
theorem read_place (hinv : fb.Invariant) (henable : fb.EnableTells) {width : Width} {p : Place}
    (hwraps : addr.toNat + width.bytes < 2 ^ 64)
    (hplace : fb.screen.place addr width.bytes = some p) :
    ∃ value, fb.read width addr = .ok value ∧ value.toNat = fb.screen.read width.bytes p := by
  have hzone := getZone_place hinv (MemoryBounds.bytes_le width).1 hwraps
  rw [hplace] at hzone
  cases p with
  | register i =>
    obtain ⟨hbytes, hi, hzone⟩ := hzone
    obtain rfl := width_of_bytes hbytes
    refine ⟨fb.screen.register i, ?_, rfl⟩
    change fb.readWord addr = _
    unfold readWord
    rw [show fb.getZone addr 4 = _ from hzone]
    change fb.control.get ((BitVec.ofNat 32 (4 * i)).toNat / 4) = _
    rw [toNat_index (by omega)]
    exact get_register hinv henable hi
  | colour i =>
    obtain ⟨hbytes, hi, hzone⟩ := hzone
    obtain rfl := width_of_bytes hbytes
    refine ⟨fb.palette[i], ?_, ?_⟩
    · change fb.readWord addr = _
      unfold readWord
      rw [show fb.getZone addr 4 = _ from hzone]
      simp only [bind, Except.bind, toNat_index hi, Vector.getElem?_eq_getElem hi]
      rfl
    · change fb.palette[i].toNat = (fb.palette[i]?.getD 0).toNat
      rw [Vector.getElem?_eq_getElem hi, Option.getD_some]
  | pixels offset =>
    obtain ⟨c, hc, hin, hzone⟩ := hzone
    have hmemsize := (hinv.fitting c hc).memsize_lt
    have hoffset : (BitVec.ofNat 32 offset).toNat = offset := by
      rw [BitVec.toNat_ofNat, Nat.mod_eq_of_lt (by omega)]
    have hscreen : fb.screen.read width.bytes (.pixels offset) =
        LittleEndian.ofBytes (c.window.bytesFrom offset width.bytes) := by
      unfold Screen.read screen
      rw [hc]
      rfl
    have hload := c.load_eq (show (BitVec.ofNat 32 offset).toNat + width.bytes ≤ _ by
      rw [hoffset]
      exact hin)
    have hlt := LittleEndian.ofBytes_lt (c.window.bytesFrom offset width.bytes)
    have hlength : (c.window.bytesFrom offset width.bytes).length = width.bytes := by
      simp [Window.bytesFrom]
    rw [hlength] at hlt
    rw [hoffset] at hload
    rw [read_buffer hzone, deref_of_mem hc, hscreen]
    refine ⟨_, hload, ?_⟩
    rw [BitVec.toNat_ofNat, Nat.mod_eq_of_lt hlt]

end Framebuffer

end Rv64Emu
