import Rv64Emu.BusAccesses
import Rv64Emu.FramebufferInvariant

/-! Runs of the framebuffer under the accesses of the guest and the events of
its window, which may close the window between any two accesses. -/
namespace Rv64Emu

open Outcomes

/-- What happens to the device. -/
inductive Input where
  | access (a : Access)
  | processEvents (polled : List Event) (pitch : BitVec 32) (redraw : Bool)
  | clockPulse (polled : List Event) (pitch : BitVec 32)

namespace Framebuffer

/-- The device as `processor.cc` adds it to the bus. -/
def boot : Framebuffer := { control_base := 0x800, framebuffer_base := 0x1000000 }

/-- The value that is read is dropped. -/
def access (fb : Framebuffer) : Access → Except FramebufferFault Framebuffer
  | .read width addr => do
    let _ ← fb.read width addr
    return fb
  | .write width addr value => fb.write width addr value

/-- An access that throws leaves the device as it was. -/
def step (fb : Framebuffer) : Input → Except FramebufferFault Framebuffer
  | .access a =>
    match fb.access a with
    | .error (.illegalAccess _) => .ok fb
    | r => r
  | .processEvents polled pitch redraw => Prod.fst <$> fb.processEvents polled pitch redraw
  | .clockPulse polled pitch => Prod.fst <$> fb.clockPulse polled pitch

/-- The bus passes on the accesses to addresses that the device contains. -/
def Routed (fb : Framebuffer) : Input → Prop
  | .access a => fb.contains a.addr = .ok true
  | _ => True

/-- The device is not enabled with a mode outside the table, nor with 2^32 bytes
of pixels or more. -/
def Proper (fb : Framebuffer) : Input → Prop
  | .access (.write .word addr value) =>
    addr = fb.control_base → fb.active_window = false → value ≠ 0#32 → fb.control.Fits
  | _ => True

/-- The states of all runs whose inputs meet the condition. -/
inductive Reached (Condition : Framebuffer → Input → Prop) : Framebuffer → Prop where
  | boot : Reached Condition boot
  | step {fb fb' : Framebuffer} {i : Input} (before : Reached Condition fb) (routed : fb.Routed i)
      (condition : Condition fb i) (result : fb.step i = .ok fb') : Reached Condition fb'

/-- A window has a context of the right size, and nothing is undefined: not the
lookup of an address, not an input, not a redraw. -/
structure Sound (Condition : Framebuffer → Input → Prop) (fb : Framebuffer) : Prop where
  window : fb.active_window = true ↔ fb.context ≠ none
  sized : ∀ c ∈ fb.context, c.Sized
  contains : ∀ addr, ∃ b, fb.contains addr = .ok b
  step : ∀ i, fb.Routed i → Condition fb i → ∃ fb', fb.step i = .ok fb'
  redraws : ∀ c ∈ fb.context, ∀ pitch, ∃ drawn, c.redrawScreen pitch fb.palette = .ok drawn

/-! ### Steps -/

variable {fb : Framebuffer}

/-- An access is refused or keeps the invariant. -/
theorem access_meets (hinv : fb.Invariant) {a : Access} (hsmall : a.addr.toNat < 2 ^ 33)
    (hproper : fb.Proper (.access a)) :
    Meets (Thrown a.width.bytes) Invariant (fb.access a) := by
  cases a with
  | read width addr =>
    have hread : Meets (Thrown width.bytes) (fun _ => True) (fb.read width addr) := by
      cases width with
      | word => exact readWord_meets hinv hsmall
      | byte | halfWord | doubleWord => exact readMem_meets hinv hsmall (by decide) _
    exact meets_bind hread fun _ _ => hinv
  | write width addr value =>
    cases width with
    | word => exact writeWord_meets hinv hsmall hproper
    | byte | halfWord | doubleWord => exact writeMem_meets hinv hsmall (by decide) _ value

theorem invariant_boot : boot.Invariant := ⟨rfl, rfl, rfl, nofun⟩

/-- A proper input keeps the invariant, and nothing is undefined. -/
theorem step_meets (hinv : fb.Invariant) {i : Input} (hroute : fb.Routed i)
    (hproper : fb.Proper i) : Meets (fun _ => False) Invariant (fb.step i) := by
  cases i with
  | access a =>
    have hsmall := meets_of_eq (contains_meets hinv) hroute rfl
    have haccess := access_meets hinv hsmall hproper
    change Meets (fun _ => False) Invariant (match fb.access a with
      | .error (.illegalAccess _) => .ok fb
      | r => r)
    generalize fb.access a = result at haccess ⊢
    cases result with
    | ok fb' => exact haccess
    | error fault =>
      obtain ⟨-, what, rfl⟩ := haccess
      exact hinv
  | processEvents polled pitch redraw =>
    exact meets_map.mpr (processEvents_meets hinv polled pitch redraw)
  | clockPulse polled pitch => exact meets_map.mpr (clockPulse_meets hinv polled pitch)

theorem invariant_of_reached (h : Reached Proper fb) : fb.Invariant := by
  induction h with
  | boot => exact invariant_boot
  | step _ routed proper result ih => exact meets_of_eq (step_meets ih routed proper) result

theorem Invariant.sound (hinv : fb.Invariant) : Sound Proper fb where
  window := by
    rw [hinv.window, Option.isSome_iff_ne_none]
  sized c hc := (hinv.fitting c hc).sized
  contains addr := by
    obtain ⟨b, hb, -⟩ := meets_iff_exists.mp (contains_meets hinv)
    exact ⟨b, hb⟩
  step i hroute hproper := by
    obtain ⟨fb', hfb', -⟩ := meets_iff_exists.mp (step_meets hinv hroute hproper)
    exact ⟨fb', hfb'⟩
  redraws c hc pitch := by
    obtain ⟨drawn, hdrawn, -⟩ :=
      meets_iff_exists.mp (RenderContext.redrawScreen_meets pitch fb.palette (hinv.fitting c hc))
    exact ⟨drawn, hdrawn⟩

/-- Whatever enables the device has created its context. -/
theorem proper_of_sized (hinv : fb.Invariant) {i : Input} {fb' : Framebuffer}
    (hstep : fb.step i = .ok fb') (hsized : ∀ c ∈ fb'.context, c.Sized) : fb.Proper i := by
  cases i with
  | access a =>
    cases a with
    | read width addr => trivial
    | write width addr value =>
      cases width with
      | word =>
        intro haddr hactive hvalue
        subst haddr
        rw [hinv.control_base_eq] at hstep
        have hwrite : fb.access (.write .word 0x800 value) = fb.writeEnable value :=
          writeWord_register (i := 0) hinv.control_base_eq (by decide) value
        unfold writeEnable at hwrite
        rw [hactive, if_neg nofun, if_pos ⟨rfl, pos_iff_ne_zero.mpr hvalue⟩] at hwrite
        unfold step at hstep
        dsimp only at hstep
        obtain ⟨u, hnew⟩ | ⟨c, hnew, hfits⟩ := RenderContext.new_cases fb.control
        · rw [hwrite, hnew] at hstep
          cases hstep
        · rw [hwrite, hnew] at hstep
          cases hstep
          exact hfits (hsized c rfl)
      | byte | halfWord | doubleWord => trivial
  | processEvents polled pitch redraw => trivial
  | clockPulse polled pitch => trivial

/-- In every run of proper inputs all states are sound. A further input leads to
a sound state exactly if it is proper. -/
theorem sound_of_reached (h : Reached Proper fb) :
    Sound Proper fb ∧ ∀ i, fb.Routed i →
      ((∃ fb', fb.step i = .ok fb' ∧ Sound Proper fb') ↔ fb.Proper i) := by
  have hinv := invariant_of_reached h
  refine ⟨hinv.sound, fun i hroute => ⟨?_, fun hproper => ?_⟩⟩
  · rintro ⟨fb', hstep, hsound⟩
    exact proper_of_sized hinv hstep hsound.sized
  · obtain ⟨fb', hstep, hinv'⟩ := meets_iff_exists.mp (step_meets hinv hroute hproper)
    exact ⟨fb', hstep, hinv'.sound⟩

theorem Reached.register {Condition : Framebuffer → Input → Prop} (h : Reached Condition fb)
    (hbase : fb.control_base = 0x800) {i : Nat} (hi : i < 4) (value : BitVec 32)
    {fb' : Framebuffer} (hcondition : Condition fb (.access (.write .word (register i) value)))
    (hresult : fb.writeWord (register i) value = .ok fb') : Reached Condition fb' := by
  refine .step h (i := .access (.write .word _ value)) (contains_register hbase hi) hcondition ?_
  change (match fb.writeWord (Framebuffer.register i) value with
    | .error (.illegalAccess _) => Except.ok fb
    | r => r) = .ok fb'
  rw [hresult]

/-- The device after the guest has written the resolution. -/
def resolution (resx resy : BitVec 32) : Framebuffer :=
  { boot with control := { resx := resx, resy := resy } }

theorem reached_resolution {Condition : Framebuffer → Input → Prop}
    (h : ∀ fb addr value, addr ≠ fb.control_base →
      Condition fb (.access (.write .word addr value))) (resx resy : BitVec 32) :
    Reached Condition (resolution resx resy) := by
  have hresx : Reached Condition (resolution resx 0) :=
    Reached.boot.register rfl (by decide) resx (h boot _ resx (by decide))
      (writeWord_register (i := 2) rfl (by decide) resx)
  have hresy : register 3 ≠ 0x800 := by decide
  exact hresx.register rfl (by decide) resy (h _ _ resy hresy)
    (writeWord_register (i := 3) rfl (by decide) resy)

/-- A guest that enables the device with 2^32 pixels gets no memory. -/
theorem wide_unsound : ¬∀ fb, Reached (fun _ _ => True) fb → Sound (fun _ _ => True) fb := by
  intro h
  have hwide : Reached (fun _ _ => True) (resolution 0x10000 0x10000) :=
    reached_resolution (fun _ _ _ _ => trivial) _ _
  have henabled := hwide.register rfl (i := 0) (by decide) 1 trivial
    (writeWord_register rfl (by decide) 1)
  obtain ⟨-, hmemsize⟩ := (h _ henabled).sized _ rfl
  exact absurd hmemsize (by decide)

/-- The device is enabled with two rows of two pixels. -/
theorem sound_of_reached_twoByTwo : ∃ fb, fb.active_window = true ∧ Reached Proper fb ∧
    Sound Proper fb := by
  have hsmall : Reached Proper (resolution 2 2) :=
    reached_resolution (fun _ _ _ hne heq => absurd heq hne) 2 2
  have henabled := hsmall.register rfl (i := 0) (by decide) 1
    (fun _ _ _ => ⟨by decide, by decide⟩) (writeWord_register rfl (by decide) 1)
  exact ⟨_, rfl, henabled, (sound_of_reached henabled).1⟩

end Framebuffer

end Rv64Emu
