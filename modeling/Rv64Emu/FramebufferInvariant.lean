import Rv64Emu.Library.Outcomes
import Rv64Emu.Machine.Framebuffer
import Rv64Emu.MemoryBounds

/-! The invariant of the framebuffer, and what keeps it. The size of the pixel
memory is a product in 32 bits, and the mode is not checked when the device is
enabled; everything else stays inside the memory. -/
namespace Rv64Emu

open Outcomes

/-! ### The pixel memory -/

/-- The mode is in the table, and 32 bits count the bytes of the pixels. -/
structure ControlInterface.Fits (control : ControlInterface) : Prop where
  mode_lt : control.mode.toNat < 6
  bytes_lt : control.resx.toNat * control.resy.toNat * bytesPerPixel control.mode < 2 ^ 32

/-- The memory has the size of the pixels over the integers. -/
structure RenderContext.Sized (c : RenderContext) : Prop where
  mode_lt : c.mode.toNat < 6
  memsize_eq : c.memsize.toNat = c.resx.toNat * c.resy.toNat * bytesPerPixel c.mode

namespace RenderContext

/-- Nothing but the bytes of the memory and the mark may differ. -/
structure SameShape (c c' : RenderContext) : Prop where
  memsize : c'.memsize = c.memsize
  mode : c'.mode = c.mode
  resx : c'.resx = c.resx
  resy : c'.resy = c.resy

/-- The invariant of a context: its pixels fit in 32 bits. -/
structure Fitting (c : RenderContext) : Prop where
  sized : c.Sized
  memsize_lt : c.memsize.toNat < 2 ^ 32

variable {c c' : RenderContext}

theorem Fitting.of_sameShape (h : c.Fitting) (hsame : c.SameShape c') : c'.Fitting := by
  obtain ⟨hmemsize, hmode, hresx, hresy⟩ := hsame
  obtain ⟨⟨hlt, heq⟩, hfits⟩ := h
  rw [← hmode] at hlt
  rw [← hmemsize, ← hmode, ← hresx, ← hresy] at heq
  rw [← hmemsize] at hfits
  exact ⟨⟨hlt, heq⟩, hfits⟩

/-- Modes in the table have one to four bytes per pixel. -/
theorem bytesPerPixel_bounds {mode : BitVec 32} (h : mode.toNat < 6) :
    mem_mult[mode.toNat]? = some (bytesPerPixel mode) ∧
      1 ≤ bytesPerPixel mode ∧ bytesPerPixel mode ≤ 4 := by
  unfold bytesPerPixel
  generalize mode.toNat = n at h
  revert n
  decide

/-- A size that fits is the one that the constructor computes. -/
theorem new_meets {permitted : FramebufferFault → Prop} {control : ControlInterface}
    (h : control.Fits) :
    Meets permitted Fitting (new control.resx control.resy control.mode) := by
  obtain ⟨enable, mode, resx, resy⟩ := control
  obtain ⟨hmode, hfits⟩ := h
  dsimp only at hmode hfits ⊢
  obtain ⟨hmult, hpos, hle⟩ := bytesPerPixel_bounds hmode
  have harea : resx.toNat * resy.toNat < 2 ^ 32 :=
    Nat.lt_of_le_of_lt (Nat.le_mul_of_pos_right _ hpos) hfits
  have hsize : (resx * resy * BitVec.ofNat 32 (bytesPerPixel mode)).toNat =
      resx.toNat * resy.toNat * bytesPerPixel mode := by
    rw [BitVec.toNat_mul, BitVec.toNat_mul, BitVec.toNat_ofNat, Nat.mod_eq_of_lt harea,
      Nat.mod_eq_of_lt (show bytesPerPixel mode < 2 ^ 32 by omega), Nat.mod_eq_of_lt hfits]
  have hwide : ((resx * resy * BitVec.ofNat 32 (bytesPerPixel mode)).setWidth 64).toNat =
      resx.toNat * resy.toNat * bytesPerPixel mode := by
    rw [BitVec.toNat_setWidth, hsize, Nat.mod_eq_of_lt (by omega)]
  unfold new
  rw [hmult]
  exact ⟨⟨hmode, hwide⟩, hwide.trans_lt hfits⟩

/-- A mode outside the table is undefined, and a size that does not fit is not
the size of the pixels. -/
theorem new_cases (control : ControlInterface) :
    (∃ u, new control.resx control.resy control.mode = .error (.undefined u)) ∨
      ∃ c, new control.resx control.resy control.mode = .ok c ∧ (c.Sized → control.Fits) := by
  unfold new
  split
  · exact .inl ⟨_, rfl⟩
  · refine .inr ⟨_, rfl, ?_⟩
    rintro ⟨hmode, hmemsize⟩
    refine ⟨hmode, ?_⟩
    rw [← hmemsize, BitVec.toNat_setWidth]
    exact Nat.lt_of_le_of_lt (Nat.mod_le _ _) (BitVec.isLt _)

section

variable {permitted : FramebufferFault → Prop}

theorem load_meets (width : Width) {offset : BitVec 32}
    (h : offset.toNat + width.bytes ≤ c.memsize.toNat) :
    Meets permitted (fun _ => True) (c.load width offset) := by
  unfold load bytesAt
  rw [if_pos (by omega)]
  trivial

theorem store_meets {width : Width} {offset : BitVec 32} (value : width.Value)
    (h : offset.toNat + width.bytes ≤ c.memsize.toNat) :
    Meets permitted c.SameShape (c.store width offset value) := by
  unfold store
  rw [dif_pos (by rw [c.mem_length]; exact h)]
  exact ⟨rfl, rfl, rfl, rfl⟩

theorem row_le (bytes : Nat) {y rows : Nat} (h : y < rows) : y * bytes + bytes ≤ bytes * rows := by
  rw [← Nat.succ_mul, Nat.mul_comm]
  exact Nat.mul_le_mul_left bytes h

theorem bytesPerPixel_of_translated {mode : BitVec 32}
    (h : mode = FBMODE_Y8 ∨ mode = FBMODE_INDEXED) : bytesPerPixel mode = 1 := by
  obtain hmode | hmode := h
  · rw [hmode]
    decide
  · rw [hmode]
    decide

/-- Pixels with one byte are at the index that the loop computes. -/
theorem toNat_pixelIndex (h : c.Fitting) (hmode : bytesPerPixel c.mode = 1) {y x : Nat}
    (hy : y < c.resy.toNat) (hx : x < c.resx.toNat) :
    (BitVec.ofNat 32 y * c.resx + BitVec.ofNat 32 x).toNat = y * c.resx.toNat + x ∧
      y * c.resx.toNat + x < c.memsize.toNat := by
  have hmemsize := h.sized.memsize_eq
  have hlt := h.memsize_lt
  have hresx := c.resx.isLt
  have hresy := c.resy.isLt
  rw [hmode, Nat.mul_one] at hmemsize
  have hrow := row_le c.resx.toNat hy
  have hin : y * c.resx.toNat + x < c.memsize.toNat := by omega
  refine ⟨?_, hin⟩
  rw [BitVec.toNat_add, BitVec.toNat_mul, BitVec.toNat_ofNat, BitVec.toNat_ofNat,
    Nat.mod_eq_of_lt (show y < 2 ^ 32 by omega), Nat.mod_eq_of_lt (show x < 2 ^ 32 by omega),
    Nat.mod_eq_of_lt (show y * c.resx.toNat < 2 ^ 32 by omega), Nat.mod_eq_of_lt (by omega)]

theorem pixelAt_meets (palette : Palette) (h : c.Fitting) (hmode : bytesPerPixel c.mode = 1)
    {y x : Nat} (hy : y < c.resy.toNat) (hx : x < c.resx.toNat) :
    Meets permitted (fun _ => True) (c.pixelAt palette y x) := by
  obtain ⟨hindex, hin⟩ := toNat_pixelIndex h hmode hy hx
  unfold pixelAt
  refine meets_bind (load_meets .byte ?_) fun _ _ => trivial
  rw [hindex]
  exact hin

/-- The pitch is a positive `int` wherever it counts: in a memory of two rows or
more a row has less than 2^31 bytes. -/
theorem rowPitch_eq (h : c.Fitting) {y : Nat} (hy : y < c.resy.toNat) :
    (y : Int) * (c.resx * BitVec.ofNat 32 (bytesPerPixel c.mode)).toInt =
        (y * (c.resx.toNat * bytesPerPixel c.mode) : Nat) ∧
      y * (c.resx.toNat * bytesPerPixel c.mode) + c.resx.toNat * bytesPerPixel c.mode ≤
        c.memsize.toNat := by
  obtain ⟨-, -, hmult⟩ := bytesPerPixel_bounds h.sized.mode_lt
  have hlt := h.memsize_lt
  have hmemsize := h.sized.memsize_eq
  rw [Nat.mul_right_comm] at hmemsize
  generalize hbytes : c.resx.toNat * bytesPerPixel c.mode = bytes at hmemsize
  have hend : y * bytes + bytes ≤ c.memsize.toNat := by
    rw [hmemsize]
    exact row_le bytes hy
  refine ⟨?_, hend⟩
  cases y with
  | zero => simp
  | succ y =>
    have htwo : bytes * 2 ≤ c.memsize.toNat := by
      rw [hmemsize]
      exact Nat.mul_le_mul_left _ (by omega)
    have hnat : (c.resx * BitVec.ofNat 32 (bytesPerPixel c.mode)).toNat = bytes := by
      rw [BitVec.toNat_mul, BitVec.toNat_ofNat,
        Nat.mod_eq_of_lt (show bytesPerPixel c.mode < 2 ^ 32 by omega), hbytes,
        Nat.mod_eq_of_lt (by omega)]
    rw [BitVec.toInt_eq_toNat_of_lt (by omega), hnat]
    push_cast
    rfl

theorem rowAt_meets (h : c.Fitting) {y : Nat} (hy : y < c.resy.toNat) :
    Meets permitted (fun _ => True) (c.rowAt (bytesPerPixel c.mode) y) := by
  obtain ⟨hpitch, hend⟩ := rowPitch_eq h hy
  unfold rowAt bytesAt
  dsimp only
  rw [hpitch, if_pos (by omega)]
  trivial

/-- No pixel and no row is outside the memory. -/
theorem frame_meets (pitch : BitVec 32) (palette : Palette) (h : c.Fitting) :
    Meets permitted (fun _ => True) (c.frame pitch palette) := by
  unfold frame
  split_ifs with hdirect htranslated
  · rw [meets_map]
    refine meets_mapM fun y hy => ?_
    exact rowAt_meets h (List.mem_range.mp hy)
  · have hmode := bytesPerPixel_of_translated htranslated
    rw [meets_map]
    refine meets_mapM fun y hy => meets_mapM fun x hx => ?_
    exact meets_bind (pixelAt_meets palette h hmode (List.mem_range.mp hy) (List.mem_range.mp hx))
      fun _ _ => trivial
  · trivial

theorem redrawScreen_meets (pitch : BitVec 32) (palette : Palette) (h : c.Fitting) :
    Meets permitted (fun drawn => c.SameShape drawn.1) (c.redrawScreen pitch palette) := by
  unfold redrawScreen
  exact meets_bind (frame_meets pitch palette h) fun _ _ => ⟨rfl, rfl, rfl, rfl⟩

end

end RenderContext

/-! ### Zones -/

namespace Framebuffer

/-- What holds of the device between two inputs. -/
structure Invariant (fb : Framebuffer) : Prop where
  control_base_eq : fb.control_base = 0x800
  framebuffer_base_eq : fb.framebuffer_base = 0x1000000
  window : fb.active_window = fb.context.isSome
  fitting : ∀ c ∈ fb.context, c.Fitting

/-- A fault that the guest sees; looking up an address throws none. -/
def Thrown (size : Nat) (fault : FramebufferFault) : Prop :=
  size ≠ 0 ∧ ∃ what, fault = .illegalAccess what

/-- The offset is where the address is, and the access ends in the zone. -/
def Inside (fb : Framebuffer) (size : Nat) (addr : MemAddress) : FBzone × BitVec 32 → Prop
  | (.CONTROL, offset) =>
    (size = 0 ∨ size = 4) ∧ addr.toNat = 0x800 + offset.toNat ∧ offset.toNat < 16
  | (.PALETTE, offset) =>
    (size = 0 ∨ size = 4) ∧ addr.toNat = 0x810 + offset.toNat ∧ offset.toNat + size ≤ 1024
  | (.BUFFER, offset) => ∃ c ∈ fb.context,
    addr.toNat = 0x1000000 + offset.toNat ∧ offset.toNat + size ≤ c.memsize.toNat
  | (.INVALID, _) => True

variable {fb : Framebuffer} {addr : MemAddress}

/-- Offsets that fit are not cut. -/
theorem toNat_narrow {pos : BitVec 64} (h : pos.toNat < 2 ^ 32) :
    (pos.setWidth 32).toNat = pos.toNat := by
  rw [BitVec.toNat_setWidth, Nat.mod_eq_of_lt h]

/-- The control registers and the palette share a range. -/
theorem control_meets {size : Nat} (hlow : 0x800 ≤ addr.toNat)
    (hhigh : addr.toNat + size ≤ 0xc10) (hsize : size = 0 ∨ size = 4) :
    Meets (Thrown size) (fb.Inside size addr)
      (if addr - 0x800 < 16 then .ok (.CONTROL, (addr - 0x800).setWidth 32)
      else .ok (.PALETTE, (addr - 0x800 - 16).setWidth 32)) := by
  have hpos : (addr - 0x800).toNat = addr.toNat - 0x800 := BitVec.toNat_sub_of_le hlow
  have hcontrol : addr - 0x800 < 16 ↔ (addr - 0x800).toNat < 16 := Iff.rfl
  by_cases hzone : (addr - 0x800).toNat < 16
  · have hoffset := toNat_narrow (show (addr - 0x800).toNat < 2 ^ 32 by omega)
    rw [if_pos (hcontrol.mpr hzone)]
    exact ⟨hsize, by omega, by omega⟩
  · have hrest : (addr - 0x800 - 16).toNat = (addr - 0x800).toNat - 16 :=
      BitVec.toNat_sub_of_le (Nat.le_of_not_lt hzone)
    have hoffset := toNat_narrow (show (addr - 0x800 - 16).toNat < 2 ^ 32 by omega)
    rw [if_neg (mt hcontrol.mp hzone)]
    exact ⟨hsize, by omega, by omega⟩

/-- The sum that delimits the pixel memory does not wrap. -/
theorem buffer_meets {size : Nat} {c : RenderContext} (hc : c ∈ fb.context) (hfits : c.Fitting)
    (hlow : 0x1000000 ≤ addr.toNat) (hwraps : addr.toNat + size < 2 ^ 64) :
    Meets (Thrown size) (fb.Inside size addr)
      (if addr + BitVec.ofNat 64 size ≤ 0x1000000 + c.memsize then
        .ok (.BUFFER, (addr - 0x1000000).setWidth 32)
      else .ok (.INVALID, 0)) := by
  have hmemsize := hfits.memsize_lt
  have hend := toNat_add_ofNat hwraps
  have hlimit : (0x1000000 + c.memsize).toNat = 0x1000000 + c.memsize.toNat := by
    rw [BitVec.toNat_add]
    exact Nat.mod_eq_of_lt (by change 0x1000000 + c.memsize.toNat < _; omega)
  have hpos : (addr - 0x1000000).toNat = addr.toNat - 0x1000000 := BitVec.toNat_sub_of_le hlow
  split_ifs with hzone
  · rw [BitVec.le_def, hend, hlimit] at hzone
    have hoffset := toNat_narrow (show (addr - 0x1000000).toNat < 2 ^ 32 by omega)
    exact ⟨c, hc, by omega, by omega⟩
  · trivial

/-- An access that does not wrap ends in the zone it starts in, or is refused. -/
theorem getZone_meets (hinv : fb.Invariant) {size : Nat} (hwraps : addr.toNat + size < 2 ^ 64) :
    Meets (Thrown size) (fb.Inside size addr) (fb.getZone addr size) := by
  have hcontrol : (addr ≥ 0x800 ∧ addr + BitVec.ofNat 64 size ≤ 0x800 + 16 + 1024) ↔
      0x800 ≤ addr.toNat ∧ addr.toNat + size ≤ 0xc10 := by
    rw [ge_iff_le, BitVec.le_def, BitVec.le_def, toNat_add_ofNat hwraps]
    rfl
  unfold getZone
  rw [hinv.control_base_eq, hinv.framebuffer_base_eq, hinv.window]
  by_cases hzone : 0x800 ≤ addr.toNat ∧ addr.toNat + size ≤ 0xc10
  · rw [if_pos (hcontrol.mpr hzone)]
    split
    case isTrue hrefused => exact ⟨by omega, _, rfl⟩
    case isFalse haccepted => exact control_meets hzone.1 hzone.2 (by omega)
  · rw [if_neg (mt hcontrol.mp hzone)]
    cases hc : fb.context with
    | none =>
      by_cases hsize : size = 0
      · rw [if_pos ⟨rfl, hsize⟩]
        trivial
      · rw [if_neg fun h => hsize h.2, if_pos ⟨rfl, Nat.pos_of_ne_zero hsize⟩]
        exact ⟨hsize, _, rfl⟩
    | some c =>
      rw [if_neg nofun, if_neg nofun]
      by_cases hlow : 0x1000000 ≤ addr.toNat
      · rw [if_pos (show addr ≥ 0x1000000 from hlow)]
        unfold deref
        rw [hc]
        exact buffer_meets hc (hinv.fitting c hc) hlow hwraps
      · rw [if_neg (show ¬addr ≥ 0x1000000 from hlow)]
        trivial

/-- The lookup of an address is defined, and addresses that the device contains
are small. -/
theorem contains_meets (hinv : fb.Invariant) :
    Meets (fun _ => False) (fun b => b = true → addr.toNat < 2 ^ 33) (fb.contains addr) := by
  unfold contains
  have hzone := getZone_meets hinv (show addr.toNat + 0 < 2 ^ 64 from addr.isLt)
  refine meets_bind (meets_mono hzone (fun _ h => h.1 rfl) fun _ => id) ?_
  rintro ⟨zone, offset⟩ hinside hcontained
  cases zone with
  | CONTROL =>
    obtain ⟨-, haddr, hlt⟩ := hinside
    omega
  | PALETTE =>
    obtain ⟨-, haddr, hlt⟩ := hinside
    omega
  | BUFFER =>
    obtain ⟨c, hc, haddr, hlt⟩ := hinside
    have hmemsize := (hinv.fitting c hc).memsize_lt
    omega
  | INVALID => cases hcontained

/-! ### Accesses -/

/-- The offset is inside the pixel memory. -/
def InMem (fb : Framebuffer) (width : Width) (offset : BitVec 32) : Prop :=
  ∃ c ∈ fb.context, offset.toNat + width.bytes ≤ c.memsize.toNat

/-- Only words reach a zone other than the pixel memory. -/
theorem inMem_of_inside {width : Width} {zone : FBzone} {offset : BitVec 32}
    (h : fb.Inside width.bytes addr (zone, offset)) (hwidth : width ≠ .word)
    (hzone : zone ≠ .INVALID) : fb.InMem width offset := by
  have hbytes : ¬(width.bytes = 0 ∨ width.bytes = 4) := by
    revert hwidth
    cases width <;> decide
  cases zone with
  | CONTROL => exact absurd h.1 hbytes
  | PALETTE => exact absurd h.1 hbytes
  | BUFFER =>
    obtain ⟨c, hc, -, hin⟩ := h
    exact ⟨c, hc, hin⟩
  | INVALID => exact absurd rfl hzone

theorem deref_of_mem {c : RenderContext} (hc : c ∈ fb.context) : fb.deref = .ok c := by
  unfold deref
  rw [hc]

theorem deref_meets {permitted : FramebufferFault → Prop} (hinv : fb.Invariant)
    (hactive : fb.active_window = true) : Meets permitted (· ∈ fb.context) fb.deref := by
  rw [hinv.window] at hactive
  obtain ⟨c, hc⟩ := Option.isSome_iff_exists.mp hactive
  rw [deref_of_mem hc]
  exact hc

/-- The palette, the control registers and the clock are free. -/
theorem Invariant.of_eq {fb' : Framebuffer} (hinv : fb.Invariant)
    (hcontrol : fb'.control_base = fb.control_base)
    (hbase : fb'.framebuffer_base = fb.framebuffer_base)
    (hactive : fb'.active_window = fb.active_window) (hcontext : fb'.context = fb.context) :
    fb'.Invariant where
  control_base_eq := hcontrol.trans hinv.control_base_eq
  framebuffer_base_eq := hbase.trans hinv.framebuffer_base_eq
  window := by
    rw [hactive, hcontext]
    exact hinv.window
  fitting := by
    rw [hcontext]
    exact hinv.fitting

theorem Invariant.withContext (hinv : fb.Invariant) {c c' : RenderContext} (hc : c ∈ fb.context)
    (hsame : c.SameShape c') : Invariant { fb with context := some c' } where
  control_base_eq := hinv.control_base_eq
  framebuffer_base_eq := hinv.framebuffer_base_eq
  window := by
    have hwindow := hinv.window
    rw [hc] at hwindow
    exact hwindow
  fitting := by
    rintro _ ⟨⟩
    exact (hinv.fitting c hc).of_sameShape hsame

theorem Invariant.closed (hinv : fb.Invariant) : fb.closed.Invariant where
  control_base_eq := hinv.control_base_eq
  framebuffer_base_eq := hinv.framebuffer_base_eq
  window := rfl
  fitting := nofun

section

variable {permitted : FramebufferFault → Prop}

theorem loadMem_meets (width : Width) {offset : BitVec 32} (h : fb.InMem width offset) :
    Meets permitted (fun _ => True) (fb.deref >>= fun c => c.load width offset) := by
  obtain ⟨c, hc, hin⟩ := h
  rw [deref_of_mem hc]
  exact RenderContext.load_meets width hin

theorem storeMem_meets (hinv : fb.Invariant) (width : Width) {offset : BitVec 32}
    (value : width.Value) (h : fb.InMem width offset) :
    Meets permitted Invariant (fb.storeMem width offset value) := by
  obtain ⟨c, hc, hin⟩ := h
  unfold storeMem
  rw [deref_of_mem hc]
  change Meets permitted Invariant (c.store width offset value >>= _)
  exact meets_bind (RenderContext.store_meets value hin) fun c' hsame => hinv.withContext hc hsame

theorem writePalette_meets (hinv : fb.Invariant) {i : Nat} (hi : i < 256) (value : BitVec 32) :
    Meets permitted Invariant (fb.writePalette i value) := by
  unfold writePalette
  rw [dif_pos hi]
  dsimp only
  split_ifs with hactive
  · refine meets_bind (deref_meets hinv hactive) fun c hc => ?_
    have hmarked : c.SameShape { c with changed := true } := ⟨rfl, rfl, rfl, rfl⟩
    exact (hinv.withContext hc hmarked).of_eq rfl rfl rfl rfl
  · exact hinv.of_eq rfl rfl rfl rfl

theorem pos_iff_ne_zero {value : BitVec 32} : value > 0 ↔ value ≠ 0#32 := by
  rw [gt_iff_lt, BitVec.lt_def, ne_eq, BitVec.toNat_eq]
  exact Nat.pos_iff_ne_zero

/-- The device is enabled with a size that fits, disabled, or left alone. -/
theorem writeEnable_meets (hinv : fb.Invariant) {value : BitVec 32}
    (hfits : fb.active_window = false → value ≠ 0#32 → fb.control.Fits) :
    Meets permitted Invariant (fb.writeEnable value) := by
  unfold writeEnable
  split_ifs with hoff hon
  · exact hinv.closed
  · have hfits := hfits (by simpa using hon.1) (pos_iff_ne_zero.mp hon.2)
    refine meets_bind (RenderContext.new_meets hfits) fun c hc => ?_
    refine ⟨hinv.control_base_eq, hinv.framebuffer_base_eq, rfl, ?_⟩
    rintro _ ⟨⟩
    exact hc
  · exact hinv

/-- There are four control registers. -/
theorem get_meets (control : ControlInterface) {i : Nat} (hi : i < 4) :
    Meets permitted (fun _ => True) (control.get i) := by
  match i, hi with
  | 0, _ | 1, _ | 2, _ | 3, _ => trivial

theorem set_meets (control : ControlInterface) {i : Nat} (hi : i < 4) (value : BitVec 32) :
    Meets permitted (fun _ => True) (control.set i value) := by
  match i, hi with
  | 0, _ | 1, _ | 2, _ | 3, _ => trivial

end

section

variable (hinv : fb.Invariant) (hsmall : addr.toNat < 2 ^ 33)

include hinv hsmall

theorem zone_meets (width : Width) :
    Meets (Thrown width.bytes) (fb.Inside width.bytes addr) (fb.getZone addr width.bytes) := by
  obtain ⟨-, hbytes⟩ := MemoryBounds.bytes_le width
  exact getZone_meets hinv (by omega)

theorem readMem_meets {width : Width} (hwidth : width ≠ .word) (what : String) :
    Meets (Thrown width.bytes) (fun _ => True) (fb.readMem width what addr) := by
  unfold readMem
  refine meets_bind (zone_meets hinv hsmall width) ?_
  rintro ⟨zone, offset⟩ hinside
  dsimp only
  split_ifs with hzone
  · exact ⟨(Nat.one_le_iff_ne_zero.mp (MemoryBounds.bytes_le width).1), what, rfl⟩
  · exact loadMem_meets width (inMem_of_inside hinside hwidth hzone)

theorem writeMem_meets {width : Width} (hwidth : width ≠ .word) (what : String)
    (value : width.Value) :
    Meets (Thrown width.bytes) Invariant (fb.writeMem width what addr value) := by
  unfold writeMem
  refine meets_bind (zone_meets hinv hsmall width) ?_
  rintro ⟨zone, offset⟩ hinside
  dsimp only
  split_ifs with hzone
  · exact ⟨(Nat.one_le_iff_ne_zero.mp (MemoryBounds.bytes_le width).1), what, rfl⟩
  · exact storeMem_meets hinv width value (inMem_of_inside hinside hwidth hzone)

theorem readWord_meets : Meets (Thrown 4) (fun _ => True) (fb.readWord addr) := by
  unfold readWord
  refine meets_bind (zone_meets hinv hsmall .word) ?_
  rintro ⟨zone, offset⟩ hinside
  cases zone with
  | CONTROL =>
    obtain ⟨-, -, hlt⟩ := hinside
    exact get_meets fb.control (by omega)
  | PALETTE =>
    obtain ⟨-, -, hlt⟩ := hinside
    change offset.toNat + 4 ≤ 1024 at hlt
    dsimp only
    rw [Vector.getElem?_eq_getElem (by omega)]
    trivial
  | BUFFER =>
    obtain ⟨c, hc, -, hin⟩ := hinside
    exact loadMem_meets .word ⟨c, hc, hin⟩
  | INVALID => exact ⟨by decide, _, rfl⟩

theorem writeWord_meets {value : BitVec 32}
    (hfits : addr = fb.control_base → fb.active_window = false → value ≠ 0#32 →
      fb.control.Fits) :
    Meets (Thrown 4) Invariant (fb.writeWord addr value) := by
  unfold writeWord
  refine meets_bind (zone_meets hinv hsmall .word) ?_
  rintro ⟨zone, offset⟩ hinside
  cases zone with
  | CONTROL =>
    obtain ⟨-, haddr, hlt⟩ := hinside
    dsimp only
    split_ifs with hoffset
    · refine writeEnable_meets hinv (hfits ?_)
      rw [hoffset] at haddr
      rw [hinv.control_base_eq]
      exact BitVec.eq_of_toNat_eq haddr
    · refine meets_bind (set_meets fb.control (by omega) value) fun control _ => ?_
      exact hinv.of_eq rfl rfl rfl rfl
  | PALETTE =>
    obtain ⟨-, -, hlt⟩ := hinside
    change offset.toNat + 4 ≤ 1024 at hlt
    exact writePalette_meets hinv (by omega) value
  | BUFFER =>
    obtain ⟨c, hc, -, hin⟩ := hinside
    exact storeMem_meets hinv .word value ⟨c, hc, hin⟩
  | INVALID => exact ⟨by decide, _, rfl⟩

end

/-! ### Events -/

theorem handleEvent_invariant (hinv : fb.Invariant) (e : Event) : (fb.handleEvent e).Invariant := by
  cases e with
  | keyEscape | keyQ =>
    unfold handleEvent
    dsimp only
    split_ifs
    · exact hinv.closed
    · exact hinv
  | keyUp | keyDown =>
    unfold handleEvent
    dsimp only
    split_ifs
    · exact hinv.of_eq rfl rfl rfl rfl
    · exact hinv
  | other => exact hinv

theorem handleEvents_invariant (hinv : fb.Invariant) (polled : List Event) :
    (polled.foldl handleEvent fb).Invariant := by
  induction polled generalizing fb with
  | nil => exact hinv
  | cons e polled ih => exact ih (handleEvent_invariant hinv e)

section

variable {permitted : FramebufferFault → Prop}

/-- The window may be gone after the events have been handled. -/
theorem processEvents_meets (hinv : fb.Invariant) (polled : List Event) (pitch : BitVec 32)
    (redraw : Bool) :
    Meets permitted (fun r => r.1.Invariant) (fb.processEvents polled pitch redraw) := by
  unfold processEvents
  have hhandled := handleEvents_invariant hinv polled
  generalize polled.foldl handleEvent fb = handled at hhandled ⊢
  dsimp only
  split_ifs with hoff hclosed
  · exact hinv
  · exact hhandled
  · have hactive : handled.active_window = true := by simpa using hclosed
    refine meets_bind (deref_meets hhandled hactive) fun c hc => ?_
    split_ifs with hdraw
    · have hfitting := hhandled.fitting c hc
      refine meets_bind (RenderContext.redrawScreen_meets pitch handled.palette hfitting) ?_
      rintro ⟨c', frame⟩ hsame
      exact hhandled.withContext hc hsame
    · exact hhandled

theorem clockPulse_meets (hinv : fb.Invariant) (polled : List Event) (pitch : BitVec 32) :
    Meets permitted (fun r => r.1.Invariant) (fb.clockPulse polled pitch) := by
  unfold clockPulse
  split_ifs with hupdate
  · refine meets_bind (processEvents_meets hinv polled pitch true) ?_
    rintro ⟨fb', frame⟩ hinv'
    exact hinv'.of_eq rfl rfl rfl rfl
  · exact hinv.of_eq rfl rfl rfl rfl

end

/-! ### Control registers -/

/-- The address of a control register. -/
def register (i : Nat) : MemAddress := 0x800 + BitVec.ofNat 64 (4 * i)

theorem getZone_register (hbase : fb.control_base = 0x800) {i size : Nat} (hi : i < 4)
    (hsize : size = 0 ∨ size = 4) :
    fb.getZone (register i) size = .ok (.CONTROL, BitVec.ofNat 32 (4 * i)) := by
  unfold getZone
  rw [hbase]
  obtain rfl | rfl := hsize
  · match i, hi with
    | 0, _ | 1, _ | 2, _ | 3, _ => rfl
  · match i, hi with
    | 0, _ | 1, _ | 2, _ | 3, _ => rfl

theorem contains_register (hbase : fb.control_base = 0x800) {i : Nat} (hi : i < 4) :
    fb.contains (register i) = .ok true := by
  unfold contains
  rw [getZone_register hbase hi (.inl rfl)]
  rfl

/-- All registers but the first are written directly. -/
theorem writeWord_register (hbase : fb.control_base = 0x800) {i : Nat} (hi : i < 4)
    (value : BitVec 32) : fb.writeWord (register i) value =
      if i = 0 then fb.writeEnable value
      else (fun control => { fb with control := control }) <$> fb.control.set i value := by
  unfold writeWord
  rw [getZone_register hbase hi (.inr rfl)]
  match i, hi with
  | 0, _ | 1, _ | 2, _ | 3, _ => rfl

end Framebuffer

end Rv64Emu
