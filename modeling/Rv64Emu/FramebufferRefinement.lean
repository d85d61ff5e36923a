import Rv64Emu.FramebufferScreen

/-! Writes, events and runs of the framebuffer: whatever the guest and the user do,
the device stands for the screen, and an update shows its picture. -/
namespace Rv64Emu

open Outcomes

namespace Framebuffer

variable {fb : Framebuffer} {addr : MemAddress}

/-! ### Writes -/

/-- The next state of the device stands for `s`; a context without a mark was there
before, with the same palette. -/
structure Becomes (fb fb' : Framebuffer) (s : Screen) : Prop where
  invariant : fb'.Invariant
  enable : fb'.EnableTells
  screen : fb'.screen = s
  marked : ∀ c ∈ fb'.context, c.changed = false → c ∈ fb.context ∧ fb'.palette = fb.palette

theorem becomes_self (hinv : fb.Invariant) (henable : fb.EnableTells) :
    fb.Becomes fb fb.screen := ⟨hinv, henable, rfl, fun _ hc _ => ⟨hc, rfl⟩⟩

theorem becomes_closed (hinv : fb.Invariant) :
    fb.Becomes fb.closed { fb.screen with window := none } := ⟨hinv.closed, rfl, rfl, nofun⟩

theorem window_eq_none (hinv : fb.Invariant) (hinactive : fb.active_window = false) :
    fb.screen.window = none := by
  have hwindow := hinv.window
  rw [hinactive] at hwindow
  unfold screen
  rw [Option.not_isSome_iff_eq_none.mp (Bool.eq_false_iff.mp hwindow.symm)]
  rfl

/-- A new window is black. -/
theorem window_of_new {resx resy mode : BitVec 32} {c : RenderContext}
    (h : RenderContext.new resx resy mode = .ok c) :
    c.window = { mode := mode, resx := resx, resy := resy } ∧ c.changed = true := by
  unfold RenderContext.new at h
  split at h
  · cases h
  · cases h
    refine ⟨?_, rfl⟩
    unfold RenderContext.window
    congr 1
    funext i
    simp only [List.getD_eq_getElem?_getD, List.getElem?_replicate]
    split_ifs <;> rfl

theorem writeEnable_becomes (hinv : fb.Invariant) (henable : fb.EnableTells) {value : BitVec 32}
    (hfits : fb.active_window = false → value ≠ 0#32 → fb.control.Fits) :
    ∃ fb', fb.writeEnable value = .ok fb' ∧ fb.Becomes fb' (fb.screen.enable value) := by
  have hwindow := hinv.window
  have hself := becomes_self hinv henable
  unfold writeEnable Screen.enable
  rw [show fb.screen.window = fb.context.map RenderContext.window from rfl]
  cases hc : fb.context with
  | none =>
    rw [hc] at hwindow
    rw [hwindow, if_neg nofun]
    by_cases hvalue : value = 0
    · rw [if_neg fun h => (pos_iff_ne_zero.mp h.2) hvalue]
      dsimp only [Option.map_none]
      rw [if_pos hvalue]
      exact ⟨_, rfl, hself⟩
    · rw [if_pos ⟨rfl, pos_iff_ne_zero.mpr hvalue⟩]
      dsimp only [Option.map_none]
      rw [if_neg hvalue]
      have hmeets : Meets (fun _ => False) RenderContext.Fitting
          (RenderContext.new fb.control.resx fb.control.resy fb.control.mode) :=
        RenderContext.new_meets (hfits hwindow hvalue)
      obtain ⟨c, hnew, hfitting⟩ := meets_iff_exists.mp hmeets
      obtain ⟨hblack, hmarked⟩ := window_of_new hnew
      rw [hnew]
      refine ⟨_, rfl, ?_⟩
      constructor
      · refine ⟨hinv.control_base_eq, hinv.framebuffer_base_eq, rfl, ?_⟩
        rintro _ ⟨⟩
        exact hfitting
      · rfl
      · unfold screen
        rw [Option.map_some, hblack]
      · rintro _ ⟨⟩ hchanged
        cases hmarked.symm.trans hchanged
  | some c =>
    rw [hc] at hwindow
    rw [hwindow]
    by_cases hvalue : value = 0
    · rw [if_pos ⟨rfl, hvalue⟩]
      dsimp only [Option.map_some]
      rw [if_pos hvalue]
      exact ⟨_, rfl, becomes_closed hinv⟩
    · rw [if_neg fun h => hvalue h.2, if_neg nofun]
      dsimp only [Option.map_some]
      rw [if_neg hvalue]
      exact ⟨_, rfl, hself⟩

theorem writePalette_becomes (hinv : fb.Invariant) (henable : fb.EnableTells) {i : Nat}
    (hi : i < 256) (value : BitVec 32) :
    ∃ fb', fb.writePalette i value = .ok fb' ∧
      fb.Becomes fb' { fb.screen with palette := fb.palette.setIfInBounds i value } := by
  have hwindow := hinv.window
  have hset : fb.palette.setIfInBounds i value = fb.palette.set i value hi := by
    ext j hj
    rw [Vector.getElem_setIfInBounds, Vector.getElem_set]
  unfold writePalette
  rw [dif_pos hi, hset]
  obtain hc | ⟨c, hc⟩ := Option.eq_none_or_eq_some fb.context
  · rw [hc] at hwindow
    have hinactive : ¬fb.active_window = true := by rw [hwindow]; decide
    rw [if_neg hinactive]
    refine ⟨_, rfl, hinv.of_eq rfl rfl rfl rfl, henable, rfl, ?_⟩
    intro c hmem
    cases hmem.symm.trans hc
  · rw [hc] at hwindow
    have hactive : fb.active_window = true := hwindow
    rw [if_pos hactive, deref_of_mem hc]
    refine ⟨_, rfl, ?_⟩
    have hmarked : c.SameShape { c with changed := true } := ⟨rfl, rfl, rfl, rfl⟩
    constructor
    · exact (hinv.withContext hc hmarked).of_eq rfl rfl rfl rfl
    · exact henable
    · unfold screen
      rw [hc]
      rfl
    · rintro _ ⟨⟩ hchanged
      cases hchanged

theorem storeMem_becomes (hinv : fb.Invariant) (henable : fb.EnableTells) {width : Width}
    {offset : BitVec 32} {c : RenderContext} (hc : c ∈ fb.context)
    (hin : offset.toNat + width.bytes ≤ c.memsize.toNat) (value : width.Value) :
    ∃ fb', fb.storeMem width offset value = .ok fb' ∧
      fb.Becomes fb' (fb.screen.storePixels offset.toNat
        (LittleEndian.toBytes width.bytes value)) := by
  obtain ⟨c', hstore, hsame, hchanged, hstored⟩ := RenderContext.store_eq value hin
  unfold storeMem
  rw [deref_of_mem hc]
  change ∃ fb', (c.store width offset value >>= fun c => pure { fb with context := some c }) = _ ∧ _
  rw [hstore]
  refine ⟨_, rfl, hinv.withContext hc hsame, henable, ?_, ?_⟩
  · unfold screen Screen.storePixels
    rw [hc]
    simp only [Option.map_some, hstored]
  · rintro _ ⟨⟩ h
    cases hchanged.symm.trans h

theorem register_of_place {s : Screen} {n i : Nat} (h : s.place addr n = some (.register i)) :
    addr.toNat = 0x800 + 4 * i := by
  unfold Screen.place at h
  split_ifs at h with hzone haligned hregister
  · cases h
    omega
  · cases h
  · cases hwindow : s.window with
    | none =>
      rw [hwindow] at h
      cases h
    | some w =>
      rw [hwindow] at h
      dsimp only at h
      split_ifs at h
      cases h

/-- A word goes to a control register, to the palette or to the pixels. -/
theorem writeWord_register_becomes (hinv : fb.Invariant) (henable : fb.EnableTells) {i : Nat}
    (hi : i < 4) (hzone : fb.getZone addr 4 = .ok (.CONTROL, BitVec.ofNat 32 (4 * i)))
    (value : BitVec 32)
    (hfits : i = 0 → fb.active_window = false → value ≠ 0#32 → fb.control.Fits) :
    ∃ fb', fb.writeWord addr value = .ok fb' ∧
      fb.Becomes fb' (fb.screen.writeRegister value i) := by
  unfold writeWord
  rw [hzone]
  match i, hi with
  | 0, _ => exact writeEnable_becomes hinv henable (hfits rfl)
  | 1, _ | 2, _ | 3, _ =>
    exact ⟨_, rfl, hinv.of_eq rfl rfl rfl rfl, henable, rfl, fun _ hc _ => ⟨hc, rfl⟩⟩

theorem writeWord_colour_becomes (hinv : fb.Invariant) (henable : fb.EnableTells) {i : Nat}
    (hi : i < 256) (hzone : fb.getZone addr 4 = .ok (.PALETTE, BitVec.ofNat 32 (4 * i)))
    (value : BitVec 32) :
    ∃ fb', fb.writeWord addr value = .ok fb' ∧
      fb.Becomes fb' { fb.screen with palette := fb.palette.setIfInBounds i value } := by
  unfold writeWord
  rw [hzone]
  change ∃ fb', fb.writePalette ((BitVec.ofNat 32 (4 * i)).toNat / 4) value = _ ∧ _
  rw [toNat_index hi]
  exact writePalette_becomes hinv henable hi value

/-- An accepted write changes what is at the place. -/
theorem write_place (hinv : fb.Invariant) (henable : fb.EnableTells) {width : Width} {p : Place}
    {value : width.Value} (hproper : fb.screen.Proper (.access (.write width addr value)))
    (hwraps : addr.toNat + width.bytes < 2 ^ 64)
    (hplace : fb.screen.place addr width.bytes = some p) :
    ∃ fb', fb.write width addr value = .ok fb' ∧ fb.Becomes fb' (fb.screen.write value p) := by
  have hzone := getZone_place hinv (MemoryBounds.bytes_le width).1 hwraps
  rw [hplace] at hzone
  cases p with
  | register i =>
    obtain ⟨hbytes, hi, hzone⟩ := hzone
    obtain rfl := width_of_bytes hbytes
    have hvalue : value.setWidth 32 = value := BitVec.setWidth_eq value
    have hwritten := writeWord_register_becomes hinv henable hi hzone value (by
      rintro rfl hinactive hne
      have haddr : addr = 0x800 := BitVec.eq_of_toNat_eq (register_of_place hplace)
      obtain ⟨hmode, hbytes⟩ := hproper haddr (window_eq_none hinv hinactive) hne
      rw [← bytesPerPixel_eq hmode] at hbytes
      exact ⟨hmode, hbytes⟩)
    rw [← hvalue] at hwritten
    exact hwritten
  | colour i =>
    obtain ⟨hbytes, hi, hzone⟩ := hzone
    obtain rfl := width_of_bytes hbytes
    have hvalue : value.setWidth 32 = value := BitVec.setWidth_eq value
    have hwritten := writeWord_colour_becomes hinv henable hi hzone value
    rw [← hvalue] at hwritten
    exact hwritten
  | pixels offset =>
    obtain ⟨c, hc, hin, hzone⟩ := hzone
    have hmemsize := (hinv.fitting c hc).memsize_lt
    have hoffset : (BitVec.ofNat 32 offset).toNat = offset := by
      rw [BitVec.toNat_ofNat, Nat.mod_eq_of_lt (by omega)]
    have hstore := storeMem_becomes hinv henable hc (by rw [hoffset]; exact hin) value
    rw [hoffset] at hstore
    rw [write_buffer hzone]
    exact hstore

/-! ### Events -/

/-- What depends on the frequency of the updates alone. -/
theorem becomes_frequency (hinv : fb.Invariant) (henable : fb.EnableTells) (freq : BitVec 64) :
    fb.Becomes { fb with update_freq := freq } { fb.screen with period := freq.toNat } :=
  ⟨hinv.of_eq rfl rfl rfl rfl, henable, rfl, fun _ hc _ => ⟨hc, rfl⟩⟩

theorem handleEvent_becomes (hinv : fb.Invariant) (henable : fb.EnableTells)
    (hperiod : fb.screen.period ≤ 100000000) (e : Event) :
    fb.Becomes (fb.handleEvent e) (fb.screen.event e) ∧ (fb.screen.event e).period ≤ 100000000 := by
  have hself := becomes_self hinv henable
  have hfreq : fb.update_freq.toNat ≤ 100000000 := hperiod
  cases e with
  | keyEscape | keyQ =>
    refine ⟨?_, hperiod⟩
    change fb.Becomes (if fb.active_window then fb.closed else fb) { fb.screen with window := none }
    split_ifs with hactive
    · exact becomes_closed hinv
    · have hnone := window_eq_none hinv (Bool.eq_false_iff.mpr hactive)
      exact (congrArg (fun w => fb.Becomes fb { fb.screen with window := w }) hnone).mp hself
  | keyUp =>
    have hquotient : (fb.update_freq / 10).toNat = fb.update_freq.toNat / 10 := BitVec.toNat_udiv
    have hbecomes := becomes_frequency hinv henable (fb.update_freq / 10)
    rw [hquotient] at hbecomes
    unfold handleEvent Screen.event
    by_cases hlong : fb.update_freq > 10
    · rw [if_pos hlong, if_pos (show 10 < fb.screen.period from hlong)]
      exact ⟨hbecomes, (Nat.div_le_self _ _).trans hfreq⟩
    · rw [if_neg hlong, if_neg (show ¬10 < fb.screen.period from hlong)]
      exact ⟨hself, hperiod⟩
  | keyDown =>
    have hproduct : (fb.update_freq * 10).toNat = fb.update_freq.toNat * 10 := by
      rw [BitVec.toNat_mul]
      exact Nat.mod_eq_of_lt (by change _ * 10 < _; omega)
    have hbecomes := becomes_frequency hinv henable (fb.update_freq * 10)
    rw [hproduct] at hbecomes
    unfold handleEvent Screen.event
    by_cases hshort : fb.update_freq < 10000000
    · rw [if_pos hshort, if_pos (show fb.screen.period < 10000000 from hshort)]
      refine ⟨hbecomes, ?_⟩
      change fb.update_freq.toNat < 10000000 at hshort
      change fb.update_freq.toNat * 10 ≤ 100000000
      omega
    · rw [if_neg hshort, if_neg (show ¬fb.screen.period < 10000000 from hshort)]
      exact ⟨hself, hperiod⟩
  | other => exact ⟨hself, hperiod⟩

/-- The events of one update, handled one by one. -/
theorem handleEvents_becomes (hinv : fb.Invariant) (henable : fb.EnableTells)
    (hperiod : fb.screen.period ≤ 100000000) (polled : List Event) :
    fb.Becomes (polled.foldl handleEvent fb) (polled.foldl Screen.event fb.screen) ∧
      (polled.foldl Screen.event fb.screen).period ≤ 100000000 := by
  induction polled generalizing fb with
  | nil => exact ⟨becomes_self hinv henable, hperiod⟩
  | cons e polled ih =>
    obtain ⟨hhead, hle⟩ := handleEvent_becomes hinv henable hperiod e
    rw [← hhead.screen] at hle
    obtain ⟨htail, hbound⟩ := ih hhead.invariant hhead.enable hle
    rw [hhead.screen] at htail hbound
    refine ⟨⟨htail.invariant, htail.enable, htail.screen, fun c hc hchanged => ?_⟩, hbound⟩
    obtain ⟨hmem, hpalette⟩ := htail.marked c hc hchanged
    obtain ⟨hmem', hpalette'⟩ := hhead.marked c hmem hchanged
    exact ⟨hmem', hpalette.trans hpalette'⟩

/-- The device after an update: no context is marked, and what has been drawn is the
picture; nothing is drawn where no context was marked. -/
structure Drawn (fb fb' : Framebuffer) (frame : Frame) (s : Screen) : Prop where
  invariant : fb'.Invariant
  enable : fb'.EnableTells
  screen : fb'.screen = s
  unmarked : ∀ c ∈ fb'.context, c.changed = false
  frame : (frame = .nothing ∧ ∀ c ∈ fb'.context, c ∈ fb.context ∧ fb'.palette = fb.palette) ∨
    ∃ c ∈ fb'.context, frame ≠ .nothing ∧
      frame.picture c.resx.toNat c.resy.toNat = some (c.window.picture fb'.palette)

theorem processEvents_drawn (hinv : fb.Invariant) (henable : fb.EnableTells)
    (hperiod : fb.screen.period ≤ 100000000) {polled : List Event} {pitch : BitVec 32}
    (htextured : fb.screen.Textured polled pitch) (redraw : Bool) :
    ∃ fb' frame, fb.processEvents polled pitch redraw = .ok (fb', frame) ∧
      fb.Drawn fb' frame (fb.screen.poll polled) ∧ (fb.screen.poll polled).period ≤ 100000000 := by
  obtain ⟨hhandled, hbound⟩ := handleEvents_becomes hinv henable hperiod polled
  have hwindow : fb.screen.window.isSome = fb.active_window := by
    rw [hinv.window]
    exact Option.isSome_map
  have hcontext : ∀ {fb : Framebuffer}, fb.Invariant → ¬fb.active_window = true →
      fb.context = none := by
    intro fb hinv hinactive
    rw [hinv.window] at hinactive
    exact Option.not_isSome_iff_eq_none.mp hinactive
  unfold Screen.Textured Screen.poll at htextured
  unfold processEvents Screen.poll
  rw [hwindow] at htextured ⊢
  generalize polled.foldl handleEvent fb = handled at hhandled ⊢
  by_cases hactive : fb.active_window = true
  · rw [if_pos hactive, ← hhandled.screen] at htextured
    rw [if_neg (by simp [hactive]), if_pos hactive]
    dsimp only
    by_cases hopen : handled.active_window = true
    · have hwindow' := hhandled.invariant.window
      rw [hopen] at hwindow'
      obtain ⟨c, hc⟩ := Option.isSome_iff_exists.mp hwindow'.symm
      rw [if_neg (by simp [hopen]), deref_of_mem hc]
      change ∃ fb' frame, (if (c.changed || redraw) = true then
          c.redrawScreen pitch handled.palette >>= fun drawn =>
            pure ({ handled with context := some drawn.1 }, drawn.2)
        else pure (handled, .nothing)) = _ ∧ _
      by_cases hdraw : (c.changed || redraw) = true
      · have hopened : c.window ∈ handled.screen.window := Option.mem_map_of_mem _ hc
        obtain ⟨frame, hframe, hsome, hpicture⟩ := RenderContext.frame_eq handled.palette
          (hhandled.invariant.fitting c hc) (htextured c.window hopened)
        have hdrawn : c.redrawScreen pitch handled.palette =
            .ok ({ c with changed := false }, frame) := by
          unfold RenderContext.redrawScreen
          rw [hframe]
          rfl
        have hsame : c.SameShape { c with changed := false } := ⟨rfl, rfl, rfl, rfl⟩
        rw [if_pos hdraw, hdrawn]
        refine ⟨_, _, rfl, ⟨?_, hhandled.enable, ?_, ?_, ?_⟩, hbound⟩
        · exact hhandled.invariant.withContext hc hsame
        · rw [← hhandled.screen]
          unfold screen
          rw [hc]
          rfl
        · rintro _ ⟨⟩
          rfl
        · exact .inr ⟨_, rfl, hsome, hpicture⟩
      · have hunmarked : ∀ c' ∈ handled.context, c'.changed = false := by
          intro c' hc'
          cases hc.symm.trans hc'
          exact (Bool.or_eq_false_iff.mp (Bool.eq_false_iff.mpr hdraw)).1
        rw [if_neg hdraw]
        refine ⟨_, _, rfl, ⟨hhandled.invariant, hhandled.enable, hhandled.screen, hunmarked, ?_⟩,
          hbound⟩
        exact .inl ⟨rfl, fun c' hc' => hhandled.marked c' hc' (hunmarked c' hc')⟩
    · have hnone := hcontext hhandled.invariant hopen
      rw [if_pos (by simp [hopen])]
      refine ⟨_, _, rfl, ⟨hhandled.invariant, hhandled.enable, hhandled.screen, ?_, ?_⟩, hbound⟩
      · rw [hnone]
        nofun
      · rw [hnone]
        exact .inl ⟨rfl, nofun⟩
  · have hnone := hcontext hinv hactive
    rw [if_pos (by simp [hactive]), if_neg hactive]
    refine ⟨_, _, rfl, ⟨hinv, henable, rfl, ?_, ?_⟩, hperiod⟩
    · rw [hnone]
      nofun
    · exact .inl ⟨rfl, fun c hc => ⟨hc, rfl⟩⟩

end Framebuffer

/-! ### Runs -/

variable {d : Display} {s : Screen}

theorem displays_boot : Displays ⟨.boot, none⟩ {} where
  invariant := Framebuffer.invariant_boot
  screen := rfl
  enable := rfl
  period_le := by decide
  age_le := by decide
  shown := nofun

theorem Displays.becomes (h : Displays d s) {fb : Framebuffer} {t : Screen}
    (hbecomes : d.fb.Becomes fb t) (hperiod : t.period = s.period) (hage : t.age = s.age) :
    Displays { d with fb := fb } t where
  invariant := hbecomes.invariant
  screen := hbecomes.screen
  enable := hbecomes.enable
  period_le := hperiod.trans_le h.period_le
  age_le := hage.trans_le h.age_le
  shown := by
    intro c hc hchanged
    obtain ⟨hmem, hpalette⟩ := hbecomes.marked c hc hchanged
    change d.shown = some (c.window.picture fb.palette)
    rw [hpalette]
    exact h.shown c hmem hchanged

theorem Screen.write_clock (s : Screen) {width : Width} (value : width.Value) (p : Place) :
    (s.write value p).period = s.period ∧ (s.write value p).age = s.age := by
  cases p with
  | register i =>
    match i with
    | 0 =>
      change (s.enable _).period = _ ∧ (s.enable _).age = _
      unfold Screen.enable
      cases s.window <;> dsimp only <;> split_ifs <;> exact ⟨rfl, rfl⟩
    | 1 | 2 | _ + 3 => exact ⟨rfl, rfl⟩
  | colour i => exact ⟨rfl, rfl⟩
  | pixels offset => exact ⟨rfl, rfl⟩

/-- Both accept an access, or both refuse it. -/
theorem access_answers (h : Displays d s) {a : Access} (hproper : s.Proper (.access a)) :
    (d.answer (.access a)).1 = (s.answer (.access a)).1 ∧
      Displays (d.answer (.access a)).2 (s.answer (.access a)).2 := by
  have hscreen := h.screen
  subst hscreen
  have hcontains : Meets (fun _ => False) (fun b => b = true → a.addr.toNat < 2 ^ 33)
      (d.fb.contains a.addr) := Framebuffer.contains_meets h.invariant
  have hwidth := (MemoryBounds.bytes_le a.width).2
  cases hplace : d.fb.screen.place a.addr a.width.bytes with
  | none =>
    have hrefused : d.answer (.access a) = (.refused, d) := by
      unfold Display.answer
      dsimp only
      obtain ⟨b, hb, hsmall⟩ := meets_iff_exists.mp hcontains
      rw [hb]
      cases b with
      | false => rfl
      | true =>
        have hlt := hsmall rfl
        have hwraps : a.addr.toNat + a.width.bytes < 2 ^ 64 := by omega
        have hzone := Framebuffer.getZone_place h.invariant
          (MemoryBounds.bytes_le a.width).1 hwraps
        rw [hplace] at hzone
        obtain ⟨hread, hwrite⟩ := Framebuffer.refused_of_none hzone
        cases a with
        | read width addr =>
          obtain ⟨what, hread⟩ := hread
          have hread : d.fb.read width addr = .error (.illegalAccess what) := hread
          simp only [Display.access, hread]
          rfl
        | write width addr value =>
          obtain ⟨what, hwrite⟩ := hwrite value
          have hwrite : d.fb.write width addr value = .error (.illegalAccess what) := hwrite
          simp only [Display.access, hwrite]
          rfl
    have hnone : d.fb.screen.answer (.access a) = (.refused, d.fb.screen) := by
      cases a with
      | read width addr =>
        have hplace : d.fb.screen.place addr width.bytes = none := hplace
        simp only [Screen.answer, hplace]
      | write width addr value =>
        have hplace : d.fb.screen.place addr width.bytes = none := hplace
        simp only [Screen.answer, hplace]
    rw [hrefused, hnone]
    exact ⟨rfl, h⟩
  | some p =>
    have hrouted := Framebuffer.contains_place h.invariant hplace
    have hlt := meets_of_eq hcontains hrouted rfl
    have hwraps : a.addr.toNat + a.width.bytes < 2 ^ 64 := by omega
    have haccess : d.answer (.access a) = d.access a := by
      simp only [Display.answer, hrouted]
    rw [haccess]
    cases a with
    | read width addr =>
      obtain ⟨value, hread, hvalue⟩ :=
        Framebuffer.read_place h.invariant h.enable hwraps hplace
      have hplace : d.fb.screen.place addr width.bytes = some p := hplace
      have hread : d.fb.read width addr = .ok value := hread
      simp only [Display.access, Screen.answer, hplace, hread]
      exact ⟨congrArg Answer.value hvalue, h⟩
    | write width addr value =>
      obtain ⟨fb, hwrite, hbecomes⟩ :=
        Framebuffer.write_place h.invariant h.enable hproper hwraps hplace
      obtain ⟨hperiod, hage⟩ := d.fb.screen.write_clock value p
      have hplace : d.fb.screen.place addr width.bytes = some p := hplace
      simp only [Display.access, Screen.answer, hplace, hwrite]
      exact ⟨trivial, h.becomes hbecomes hperiod hage⟩

theorem Framebuffer.Drawn.displays {fb : Framebuffer} {frame : Frame} {t : Screen}
    (h : Displays d s) (hdrawn : d.fb.Drawn fb frame t) (hperiod : t.period ≤ 100000000)
    (hage : t.age ≤ 100000001) :
    ∃ shown, d.present (.ok (fb, frame)) = (.value 0, ⟨fb, shown⟩) ∧ Displays ⟨fb, shown⟩ t ∧
      ∀ c ∈ fb.context, shown = some (c.window.picture fb.palette) := by
  obtain ⟨hframe, hkept⟩ | ⟨c, hc, hsome, hframe⟩ := hdrawn.frame
  · have hshown : ∀ c ∈ fb.context, d.shown = some (c.window.picture fb.palette) := by
      intro c hc
      obtain ⟨hmem, hpalette⟩ := hkept c hc
      rw [hpalette]
      exact h.shown c hmem (hdrawn.unmarked c hc)
    rw [hframe]
    exact ⟨d.shown, rfl, ⟨hdrawn.invariant, hdrawn.screen, hdrawn.enable, hperiod, hage,
      fun c hc _ => hshown c hc⟩, hshown⟩
  · have hshown : ∀ c' ∈ fb.context,
        some (c.window.picture fb.palette) = some (c'.window.picture fb.palette) := by
      intro c' hc'
      cases Option.mem_unique hc hc'
      rfl
    have hpresent : d.present (.ok (fb, frame)) =
        (.value 0, ⟨fb, some (c.window.picture fb.palette)⟩) := by
      have hbind : (fb.context.bind fun c => frame.picture c.resx.toNat c.resy.toNat) =
          some (c.window.picture fb.palette) := by
        rw [hc]
        exact hframe
      rw [← hbind]
      cases frame with
      | nothing => exact absurd rfl hsome
      | pixels pitch stores => rfl
      | rows rows => rfl
    exact ⟨_, hpresent, ⟨hdrawn.invariant, hdrawn.screen, hdrawn.enable, hperiod, hage,
      fun c hc _ => hshown c hc⟩, hshown⟩

theorem Screen.poll_age (s : Screen) (polled : List Event) : (s.poll polled).age = s.age := by
  have hevent : ∀ (s : Screen) (e : Event), (s.event e).age = s.age := by
    intro s e
    unfold Screen.event
    cases e <;> dsimp only <;> split_ifs <;> rfl
  have hevents : ∀ s : Screen, (polled.foldl Screen.event s).age = s.age := by
    induction polled with
    | nil => exact fun _ => rfl
    | cons e polled ih => exact fun s => (ih (s.event e)).trans (hevent s e)
  unfold Screen.poll
  split_ifs
  · exact hevents s
  · rfl

theorem screen_window {fb : Framebuffer} {w : Window} (h : w ∈ fb.screen.window) :
    ∃ c ∈ fb.context, c.window = w := Option.map_eq_some_iff.mp h

/-- After the events have been processed the window shows the picture. -/
theorem processEvents_answers (h : Displays d s) {polled : List Event} {pitch : BitVec 32}
    (htextured : s.Textured polled pitch) (redraw : Bool) :
    (d.answer (.processEvents polled pitch redraw)).1 = .value 0 ∧
      Displays (d.answer (.processEvents polled pitch redraw)).2 (s.poll polled) ∧
      ∀ w ∈ (s.poll polled).window, (d.answer (.processEvents polled pitch redraw)).2.shown =
        some (w.picture (s.poll polled).palette) := by
  have hscreen := h.screen
  subst hscreen
  obtain ⟨fb, frame, hprocess, hdrawn, hperiod⟩ :=
    Framebuffer.processEvents_drawn h.invariant h.enable h.period_le htextured redraw
  have hage := (d.fb.screen.poll_age polled).trans_le h.age_le
  obtain ⟨shown, hpresent, hdisplays, hshown⟩ := hdrawn.displays h hperiod hage
  unfold Display.answer
  dsimp only
  rw [hprocess, hpresent]
  refine ⟨rfl, hdisplays, fun w hw => ?_⟩
  rw [← hdrawn.screen] at hw ⊢
  obtain ⟨c, hc, rfl⟩ := screen_window hw
  exact hshown c hc

/-- The clock of the bus starts again with an update. -/
theorem Framebuffer.Drawn.restarted {fb fb' : Framebuffer} {frame : Frame} {t : Screen}
    (h : fb.Drawn fb' frame t) :
    fb.Drawn { fb' with cycles_since_update := 0 + 1 } frame { t with age := 1 } where
  invariant := h.invariant.of_eq rfl rfl rfl rfl
  enable := h.enable
  screen := by
    rw [← h.screen]
    rfl
  unmarked := h.unmarked
  frame := h.frame

theorem clockPulse_answers (h : Displays d s) {polled : List Event} {pitch : BitVec 32}
    (htextured : s.period < s.age → s.Textured polled pitch) :
    (d.answer (.clockPulse polled pitch)).1 = (s.answer (.clockPulse polled pitch)).1 ∧
      Displays (d.answer (.clockPulse polled pitch)).2 (s.answer (.clockPulse polled pitch)).2 := by
  have hscreen := h.screen
  subst hscreen
  have hdue : d.fb.cycles_since_update > d.fb.update_freq ↔
      d.fb.screen.period < d.fb.screen.age := Iff.rfl
  unfold Display.answer Framebuffer.clockPulse Screen.answer
  dsimp only
  by_cases hupdate : d.fb.screen.period < d.fb.screen.age
  · obtain ⟨fb, frame, hprocess, hdrawn, hperiod⟩ :=
      Framebuffer.processEvents_drawn h.invariant h.enable h.period_le (htextured hupdate) true
    obtain ⟨shown, hpresent, hdisplays, -⟩ := hdrawn.restarted.displays h hperiod
      (show 1 ≤ 100000001 by decide)
    rw [if_pos (hdue.mpr hupdate), if_pos hupdate, hprocess]
    change (d.present (.ok ({ fb with cycles_since_update := 0 + 1 }, frame))).1 = _ ∧
      Displays (d.present (.ok ({ fb with cycles_since_update := 0 + 1 }, frame))).2 _
    rw [hpresent]
    exact ⟨rfl, hdisplays⟩
  · have hage : d.fb.screen.age ≤ 100000000 := (Nat.le_of_not_lt hupdate).trans h.period_le
    have hnext : (d.fb.cycles_since_update + 1).toNat = d.fb.screen.age + 1 := by
      rw [BitVec.toNat_add]
      exact Nat.mod_eq_of_lt (by change d.fb.screen.age + 1 < _; omega)
    rw [if_neg (mt hdue.mp hupdate), if_neg hupdate]
    refine ⟨rfl, h.invariant.of_eq rfl rfl rfl rfl, ?_, h.enable, h.period_le,
      Nat.succ_le_succ hage, h.shown⟩
    rw [← hnext]
    rfl

/-- On every sequence of accesses, events and clock pulses the device answers as the
screen does, and an update at the end shows the picture of the bytes and the palette
that have been written. -/
theorem framebuffer_refines_screen (inputs : List Input)
    (hproper : Mealy.Along Screen.Proper Screen.answer inputs {}) :
    (Mealy.run Display.answer inputs ⟨.boot, none⟩).1 = (Mealy.run Screen.answer inputs {}).1 ∧
      (Mealy.run Display.answer inputs ⟨.boot, none⟩).2.fb.screen =
        (Mealy.run Screen.answer inputs {}).2 ∧
      ∀ polled pitch redraw, (Mealy.run Screen.answer inputs {}).2.Textured polled pitch →
        ∀ w ∈ ((Mealy.run Screen.answer inputs {}).2.poll polled).window,
          ((Mealy.run Display.answer inputs ⟨.boot, none⟩).2.answer
              (.processEvents polled pitch redraw)).2.shown =
            some (w.picture ((Mealy.run Screen.answer inputs {}).2.poll polled).palette) := by
  have hstep : ∀ (i : Input) (d : Display) (s : Screen), Displays d s → s.Proper i →
      (d.answer i).1 = (s.answer i).1 ∧ Displays (d.answer i).2 (s.answer i).2 := by
    intro i d s h hproper
    cases i with
    | access a => exact access_answers h hproper
    | processEvents polled pitch redraw =>
      obtain ⟨hanswer, hdisplays, -⟩ := processEvents_answers h hproper redraw
      exact ⟨hanswer, hdisplays⟩
    | clockPulse polled pitch => exact clockPulse_answers h hproper
  obtain ⟨hanswers, hend⟩ := Mealy.run_related hstep inputs displays_boot hproper
  rw [List.forall₂_eq_eq_eq] at hanswers
  exact ⟨hanswers, hend.screen, fun polled pitch redraw htextured =>
    (processEvents_answers hend htextured redraw).2.2⟩

/-- Two pixels with colours of a palette; the second one is written. -/
def twoPixels : List Input :=
  [.access (.write .word 0x804 1#32), .access (.write .word 0x808 2#32),
    .access (.write .word 0x80c 1#32), .access (.write .word 0x824 0x11223344#32),
    .access (.write .word 0x800 1#32), .access (.write .byte 0x1000001 5#8),
    .access (.read .word 0x1000002), .clockPulse [.keyQ] 0#32]

/-- The texture has rows of twelve bytes. -/
theorem framebuffer_refines_screen_twoPixels :
    ((Mealy.run Display.answer twoPixels ⟨.boot, none⟩).2.answer
        (.processEvents [] 12#32 false)).2.shown =
      some (.pixels [[0x00000000, 0x11223344]]) := by
  have hproper : Mealy.Along Screen.Proper Screen.answer twoPixels {} :=
    ⟨nofun, nofun, nofun, nofun, fun _ _ _ => ⟨by decide, by decide⟩, trivial, trivial,
      fun hdue => absurd hdue (by decide +kernel), trivial⟩
  have hsize : ((Mealy.run Screen.answer twoPixels {}).2.poll []).window.map
      (fun w => (w.resx, w.resy)) = some (2#32, 1#32) := by decide +kernel
  obtain ⟨w, hw, hsize⟩ := Option.map_eq_some_iff.mp hsize
  obtain ⟨hresx, hresy⟩ := Prod.mk.inj hsize
  have htextured : (Mealy.run Screen.answer twoPixels {}).2.Textured [] 12#32 := by
    intro w' hw' _
    cases hw.symm.trans hw'
    constructor
    · rw [hresx]
      decide
    · rw [hresy]
      decide
  obtain ⟨-, -, hshown⟩ := framebuffer_refines_screen twoPixels hproper
  rw [hshown [] 12#32 false htextured w hw]
  have hpicture : ((Mealy.run Screen.answer twoPixels {}).2.poll []).window.map
      (·.picture ((Mealy.run Screen.answer twoPixels {}).2.poll []).palette) =
        some (.pixels [[0x00000000, 0x11223344]]) := by decide +kernel
  rw [hw] at hpicture
  exact hpicture

end Rv64Emu
