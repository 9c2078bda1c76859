import RustOs.Console.Escape

/-!
# What reaches the console

The writer refines the escape machine (`writeByte_runs`): whatever is on the
screen and wherever the cursor is, a byte moves the phase on, keeps the column in
the row and touches no cell outside the screen. It panics exactly if it ends a
sequence with a number that does not fit a `u32` (`writeByte_panics`).

What the console promises for printed text then depends on the phase alone. A
panic needs a number of ten digits or more; and an ESC inside a sequence is taken
for a parameter byte, so the sequence it starts is not seen. The result is

  `total_iff : Total cells strings ↔ Tame (stream strings)`

where `Tame` looks at the bytes only: behind every `ESC [` there is no other ESC
before the final byte, and the numbers in the first 16 bytes fit.
-/

namespace RustOs.Console

open Lib Nat Phase Prog List

namespace Writer

variable {w : Writer} {byte : UInt8}

/-! ## Drawing -/

/-- The escape state of the writer is this phase. -/
def Holds (w : Writer) : Phase → Prop
  | .plain => w.ansiState = .none
  | .esc => w.ansiState = .seenEsc
  | .csi body =>
    w.ansiState = .inCsi ∧ w.csiLen = min body.length 16
      ∧ w.csiBuf.toList.take w.csiLen = body.take 16

/-- The writer is in this phase, its column is in the row, its parameters are in
their buffer and no cell outside the screen has changed. -/
structure Shows (cells : Nat → ScreenChar) (w : Writer) (ph : Phase) : Prop where
  column : w.columnPosition ≤ bufferWidth
  outside : ∀ k, bufferHeight * bufferWidth ≤ k → w.cells k = cells k
  length : w.csiLen ≤ 16
  phase : w.Holds ph

variable {cells : Nat → ScreenChar} {ph : Phase}

/-- Reading the state: the rest may use what is known of it. -/
lemma get_runs {f : Writer → Prog Writer Empty Unit} {o : Outcome Empty Unit} {ph' : Phase}
    (h : ∀ w, Shows cells w ph → Runs (Shows cells) (f w) ph o ph') :
    Runs (Shows cells) (get >>= f) ph o ph' :=
  fun w hw => h w hw w hw

lemma writeCell_runs {row col : Nat} (hrow : row < bufferHeight) (hcol : col < bufferWidth)
    (c : ScreenChar) : Runs (Shows cells) (writeCell row col c) ph (.ok ()) ph := by
  intro w hw
  refine ⟨_, if_pos ⟨hrow, hcol⟩, hw.column, fun k hk => ?_, hw.length, ?_⟩
  · have hne : k ≠ row * bufferWidth + col := by
      unfold bufferHeight bufferWidth at *
      omega
    exact (if_neg hne).trans (hw.outside k hk)
  · cases ph <;> exact hw.phase

lemma setColumn_runs {col : Nat} (hcol : col ≤ bufferWidth) :
    Runs (Shows cells) (setColumn col) ph (.ok ()) ph := by
  intro w hw
  refine ⟨_, rfl, hcol, hw.outside, hw.length, ?_⟩
  cases ph <;> exact hw.phase

lemma updateCursor_eq (hcol : w.columnPosition ≤ bufferWidth) :
    updateCursor w = (.ok (), { w with
      cursor := ((bufferHeight - 1) * bufferWidth + w.columnPosition) % 2 ^ 16 }) := by
  have hpos : (bufferHeight - 1) * bufferWidth + w.columnPosition < 2 ^ 64 := by
    unfold bufferHeight bufferWidth at *
    omega
  show (lift (Outcome.uadd 64 _ w.columnPosition) >>= _ : Prog Writer Empty Unit) w = _
  rw [Outcome.uadd_of_lt hpos, lift_ok_bind]
  rfl

lemma updateCursor_runs : Runs (Shows cells) updateCursor ph (.ok ()) ph := by
  intro w hw
  refine ⟨_, updateCursor_eq hw.column, hw.column, hw.outside, hw.length, ?_⟩
  cases ph <;> exact hw.phase

lemma moveTo_runs {col : Nat} (hcol : col ≤ bufferWidth) :
    Runs (Shows cells) (setColumn col >>= fun _ => updateCursor) ph (.ok ()) ph :=
  Runs.bind (setColumn_runs hcol) updateCursor_runs

lemma clearRow_runs {row : Nat} (hrow : row < bufferHeight) :
    Runs (Shows cells) (clearRow row) ph (.ok ()) ph :=
  get_runs fun w _ => .each fun _ hcol => writeCell_runs hrow (mem_range.mp hcol) w.blank

lemma eraseLine_runs : Runs (Shows cells) eraseLine ph (.ok ()) ph := by
  refine get_runs fun w hw => .each fun col hcol => writeCell_runs (by decide) ?_ w.blank
  rw [mem_range'_1] at hcol
  omega

lemma copyUp_runs {row col : Nat} (h1 : 1 ≤ row) (hrow : row < bufferHeight)
    (hcol : col < bufferWidth) : Runs (Shows cells) (copyUp row col) ph (.ok ()) ph := by
  intro w hw
  have hread : readCell row col w = (.ok (w.cells (row * bufferWidth + col)), w) :=
    if_pos ⟨hrow, hcol⟩
  unfold copyUp
  rw [bind_ok hread, Outcome.usub_of_le h1, lift_ok_bind]
  exact writeCell_runs (by omega) hcol _ w hw

/-- Scrolling, up to the move to the start of the row. -/
lemma scroll_runs :
    Runs (Shows cells) (each (range' 1 (bufferHeight - 1)) (fun row =>
      each (range bufferWidth) fun col => copyUp row col)
        >>= fun _ => clearRow (bufferHeight - 1)) ph (.ok ()) ph := by
  refine .bind (.each fun row hrow => .each fun col hcol => ?_)
    (clearRow_runs (by decide))
  rw [mem_range'_1] at hrow
  exact copyUp_runs hrow.1 (by unfold bufferHeight at *; omega) (mem_range.mp hcol)

/-- `new_line` leaves the cursor at the start of the row. -/
lemma newLine_spec (hw : Shows cells w ph) :
    ∃ w', newLine w = (.ok (), w') ∧ Shows cells w' ph ∧ w'.columnPosition = 0 := by
  obtain ⟨w₁, hrun, hw₁⟩ := scroll_runs w hw
  have hw₂ : Shows cells { w₁ with columnPosition := 0 } ph :=
    (setColumn_runs (zero_le bufferWidth)).state hw₁
  have hcursor := updateCursor_eq hw₂.column
  have hw₃ := updateCursor_runs.state hw₂
  rw [hcursor] at hw₃
  refine ⟨_, ?_, hw₃, rfl⟩
  have hassoc : newLine = (each (range' 1 (bufferHeight - 1)) (fun row =>
      each (range bufferWidth) fun col => copyUp row col)
        >>= fun _ => clearRow (bufferHeight - 1)) >>= fun _ =>
          setColumn 0 >>= fun _ => updateCursor := (bind_assoc _ _ _).symm
  rw [hassoc, bind_ok hrun]
  rfl

lemma newLine_runs : Runs (Shows cells) newLine ph (.ok ()) ph := by
  intro w hw
  obtain ⟨w', hrun, hw', -⟩ := newLine_spec hw
  exact ⟨w', hrun, hw'⟩

lemma backspace_runs : Runs (Shows cells) backspace ph (.ok ()) ph := by
  refine get_runs fun w hw => ?_
  have := hw.column
  split
  next hpos =>
    refine .bind (setColumn_runs (by omega)) ?_
    exact .bind (writeCell_runs (by decide) (by omega) w.blank) updateCursor_runs
  next => exact .pure _

/-! ## Sequences -/

lemma setColors_runs (fg bg : Color) : Runs (Shows cells) (setColors fg bg) ph (.ok ()) ph := by
  intro w hw
  refine ⟨_, rfl, hw.column, hw.outside, hw.length, ?_⟩
  cases ph <;> exact hw.phase

lemma applySgr_runs (p : Nat) : Runs (Shows cells) (applySgr p) ph (.ok ()) ph := by
  refine get_runs fun w _ => ?_
  repeat' split
  all_goals first | exact setColors_runs _ _ | exact .pure _

lemma eraseInDisplay_runs (mode : Nat) :
    Runs (Shows cells) (eraseInDisplay mode) ph (.ok ()) ph := by
  unfold eraseInDisplay
  split
  next =>
    refine get_runs fun w _ => .bind (.each fun r hr => .each fun c hc => ?_)
      (moveTo_runs (zero_le _))
    exact writeCell_runs (mem_range.mp hr) (mem_range.mp hc) w.blank
  next => exact eraseLine_runs

/-- A control sequence is carried out inside the screen. -/
lemma applyCsi_runs (finalByte : UInt8) {params : List Nat} (hp : ∀ p ∈ params, p < 2 ^ 32) :
    Runs (Shows cells) (applyCsi finalByte params) ph (.ok ()) ph := by
  unfold applyCsi
  split
  next =>
    split
    next => exact setColors_runs _ _
    next => exact .each fun p _ => applySgr_runs p
  next =>
    split
    next => exact eraseInDisplay_runs _
    next =>
      split
      next => exact eraseLine_runs
      next =>
        split
        next => exact moveTo_runs (by unfold bufferWidth; omega)
        next =>
          split
          next =>
            -- forward: the sum of a column and a `u32` fits a `usize`
            refine get_runs fun w hw => ?_
            have hn : params.headD 1 < 2 ^ 32 := by
              cases params with
              | nil => decide
              | cons p _ => exact hp p mem_cons_self
            have hcol := hw.column
            unfold bufferWidth at hcol
            rw [Outcome.uadd_of_lt (by omega), lift_ok_bind]
            exact moveTo_runs (by unfold bufferWidth; omega)
          next =>
            split
            next =>
              refine get_runs fun w hw => moveTo_runs ?_
              have := hw.column
              omega
            next => exact .pure _

/-! ## Bytes -/

/-- A byte is put inside the screen. -/
lemma putChar_runs (byte : UInt8) : Runs (Shows cells) (putChar byte) ph (.ok ()) ph := by
  intro w hw
  -- behind `wrapLine` there is a cell left in the row
  have hwrap : ∃ w', wrapLine w = (.ok (), w') ∧ Shows cells w' ph
      ∧ w'.columnPosition < bufferWidth := by
    show ∃ w', (if w.columnPosition ≥ bufferWidth then newLine else pure ()) w = _ ∧ _
    split
    next =>
      obtain ⟨w', hrun, hw', h0⟩ := newLine_spec hw
      exact ⟨w', hrun, hw', by rw [h0]; decide⟩
    next hlt => exact ⟨w, rfl, hw, by omega⟩
  obtain ⟨w₁, hrun, hw₁, hlt⟩ := hwrap
  have hadd : w₁.columnPosition + 1 < 2 ^ 64 := by
    unfold bufferWidth at hlt
    omega
  unfold putChar
  rw [bind_ok hrun, bind_ok (get_apply w₁), Outcome.uadd_of_lt hadd]
  refine Runs.bind (writeCell_runs (by decide) hlt _) ?_ w₁ hw₁
  exact moveTo_runs hlt

lemma plainByte_runs (hesc : byte ≠ 0x1B) :
    Runs (Shows cells) (plainByte byte) ph (.ok ()) ph := by
  unfold plainByte
  rw [if_neg hesc]
  split
  next => exact newLine_runs
  next =>
    split
    next => exact backspace_runs
    next =>
      split
      next => exact moveTo_runs (zero_le _)
      next => exact putChar_runs byte

lemma plainByte_esc (w : Writer) :
    plainByte 0x1B w = (.ok (), { w with ansiState := .seenEsc }) :=
  rfl

/-- The writer with its escape dropped. -/
lemma Shows.dropped (hw : Shows cells w ph) : Shows cells { w with ansiState := .none } .plain :=
  ⟨hw.column, hw.outside, hw.length, rfl⟩

/-- Plain text, from a writer whose escape is dropped. -/
lemma plainByte_next (hw : Shows cells w .plain) :
    ∃ w', plainByte byte w = (.ok (), w') ∧ Shows cells w' (plain.next byte) := by
  by_cases hb : byte = 0x1B
  · subst hb
    exact ⟨_, plainByte_esc w, hw.column, hw.outside, hw.length, rfl⟩
  · rw [Phase.next, if_neg hb]
    exact plainByte_runs hb w hw

/-- A parameter byte. -/
lemma pushCsi_runs (body : List UInt8) (byte : UInt8) :
    Runs (Shows cells) (pushCsi byte) (.csi body) (.ok ()) (.csi (body ++ [byte])) := by
  intro w hw
  obtain ⟨hstate, hlen, hbuf⟩ := hw.phase
  unfold pushCsi
  split
  next hlt =>
    have hb : body.length < 16 := by omega
    refine ⟨_, rfl, hw.column, hw.outside, hlt, hstate, ?_, ?_⟩
    · show w.csiLen + 1 = _
      rw [length_append, length_singleton]
      omega
    · show ((w.csiBuf.set w.csiLen byte hlt).toList.take (w.csiLen + 1)) = _
      rw [Vector.toList_set, take_succ_eq_append_getElem (by simp; omega),
        take_set_of_le (le_refl _), hbuf,
        getElem_set_self, take_of_length_le (by omega), take_of_length_le (by simp; omega)]
  next hge =>
    have hb : 16 ≤ body.length := by omega
    refine ⟨w, rfl, hw.column, hw.outside, hw.length, hstate, ?_, ?_⟩
    · rw [length_append, length_singleton]
      omega
    · rw [take_append_of_le_length hb]
      exact hbuf

/-- The byte ends a sequence with a number that is no `u32`. -/
def Overflows : Phase → UInt8 → Prop
  | .csi body, byte => isFinal byte = true ∧ ¬Numbers (body.take 16)
  | _, _ => False

/-- The final byte of a sequence. -/
lemma handleCsi_spec {body : List UInt8} (hw : Shows cells w (.csi body))
    (byte : UInt8) :
    (Numbers (body.take 16) → ∃ w', handleCsi byte { w with ansiState := .none } = (.ok (), w')
        ∧ Shows cells w' .plain)
      ∧ (¬Numbers (body.take 16) → (handleCsi byte { w with ansiState := .none }).1 = .panic) := by
  obtain ⟨-, -, hbuf⟩ := hw.phase
  have hstart : (⟨[], 0, false⟩ : Params).Ok := ⟨Nat.two_pow_pos 32, fun p hp => nomatch hp⟩
  have hspec := parseParams_spec (body.take 16) _ hstart
  rw [readsOn_zero] at hspec
  have hrun : handleCsi byte { w with ansiState := .none }
      = (lift (parseParams (body.take 16) ⟨[], 0, false⟩) >>= fun st =>
          applyCsi byte (if st.haveDigit then st.push else st.params))
        { w with ansiState := .none } := by
    unfold handleCsi
    rw [bind_ok (get_apply _), if_pos hw.length, lift_ok_bind]
    show (lift (parseParams (w.csiBuf.toList.take w.csiLen) _) >>= _ : Prog Writer Empty Unit) _
      = _
    rw [hbuf]
  rw [hrun]
  constructor
  · intro hn
    obtain ⟨st, hparse, hst⟩ := hspec.1 hn
    rw [hparse, lift_ok_bind]
    refine applyCsi_runs byte ?_ _ hw.dropped
    split
    next => exact hst.push
    next => exact hst.2
  · intro hn
    rw [hspec.2 hn]
    rfl

/-- A byte moves the phase on, unless it ends a sequence with a number that is no
`u32`. -/
lemma writeByte_runs (h : ¬Overflows ph byte) :
    Runs (Shows cells) (writeByte byte) ph (.ok ()) (ph.next byte) := by
  intro w hw
  unfold writeByte
  rw [bind_ok (get_apply w)]
  cases ph with
  | plain =>
    rw [show w.ansiState = .none from hw.phase]
    exact plainByte_next hw
  | esc =>
    rw [show w.ansiState = .seenEsc from hw.phase]
    by_cases hb : byte = 0x5B
    · rw [if_pos hb, Phase.next, if_pos hb]
      refine ⟨_, rfl, hw.column, hw.outside, zero_le _, rfl, rfl, ?_⟩
      exact take_zero
    · -- the escape is dropped and the byte is text
      rw [if_neg hb, Phase.next, if_neg hb]
      exact plainByte_next hw.dropped
  | csi body =>
    rw [show w.ansiState = .inCsi from hw.phase.1]
    cases hfinal : isFinal byte with
    | true =>
      rw [if_pos rfl, Phase.next, if_pos hfinal]
      exact (handleCsi_spec hw byte).1 (Classical.not_not.mp fun hn => h ⟨hfinal, hn⟩)
    | false =>
      rw [if_neg Bool.false_ne_true, Phase.next, if_neg (Bool.eq_false_iff.mp hfinal)]
      exact pushCsi_runs body byte w hw

lemma writeByte_panics (h : Overflows ph byte)
    (hw : Shows cells w ph) : (writeByte byte w).1 = .panic := by
  cases ph with
  | csi body =>
    obtain ⟨hfinal, hn⟩ := h
    unfold writeByte
    rw [bind_ok (get_apply w), show w.ansiState = .inCsi from hw.phase.1]
    rw [if_pos hfinal]
    exact (handleCsi_spec hw byte).2 hn
  | _ => exact absurd h id

/-! ## Texts -/

/-- The bytes of a text go to `write_byte` one after the other. -/
def writeBytes (s : List UInt8) : Prog Writer Empty Unit := Prog.each s writeByte

lemma writeBytes_concat (s : List UInt8) (b : UInt8) :
    writeBytes (s ++ [b]) = writeBytes s >>= fun _ => writeByte b := by
  unfold writeBytes
  rw [each_append]
  congr 1
  funext _ w
  rcases hrun : writeByte b w with ⟨o, w'⟩
  cases o with
  | ok u => exact bind_ok hrun
  | err e => cases e
  | panic => exact bind_panic hrun
  | diverge => exact bind_diverge hrun

lemma start_shows (cells : Nat → ScreenChar) : Shows cells (start cells) .plain :=
  ⟨zero_le _, fun _ _ => rfl, zero_le _, rfl⟩

/-- No byte of the text ends a sequence with a number that is no `u32`. -/
def NoOverflow (s : List UInt8) : Prop :=
  ∀ p b, p ++ [b] <+: s → ¬Overflows (Phase.after p) b

lemma writeBytes_runs : ∀ {s : List UInt8}, NoOverflow s →
    Runs (Shows cells) (writeBytes s) .plain (.ok ()) (after s) := by
  intro s
  induction s using reverseRecOn with
  | nil => exact fun _ => .pure _
  | append_singleton s b ih =>
    intro h
    rw [writeBytes_concat, after_concat]
    refine .bind (ih fun p c hp => h p c (hp.trans (prefix_append _ _))) ?_
    exact writeByte_runs (h s b prefix_rfl)

/-- A text that is printed to its end. -/
lemma writeBytes_ok : ∀ {s : List UInt8} {w : Writer},
    writeBytes s (start cells) = (.ok (), w) → Shows cells w (after s) ∧ NoOverflow s := by
  intro s
  induction s using reverseRecOn with
  | nil =>
    intro w h
    rw [← (Prod.mk.inj h).2]
    refine ⟨start_shows cells, fun p b hp => ?_⟩
    exact absurd (prefix_nil.mp hp) (by simp)
  | append_singleton s b ih =>
    intro w h
    rw [writeBytes_concat] at h
    obtain ⟨_, w₁, h₁, h₂⟩ := bind_eq_ok h
    obtain ⟨hw₁, hs⟩ := ih h₁
    have hb : ¬Overflows (after s) b := by
      intro ho
      have hpanic := writeByte_panics ho hw₁
      rw [h₂] at hpanic
      cases hpanic
    have hw := (writeByte_runs hb).state hw₁
    rw [h₂, ← after_concat] at hw
    refine ⟨hw, fun p c hp => ?_⟩
    rcases prefix_concat_iff.mp hp with heq | hp
    · obtain ⟨rfl, hc⟩ := append_inj' heq rfl
      rw [singleton_inj.mp hc]
      exact hb
    · exact hs p c hp

/-- Taking an ESC as if the text began with it. -/
lemma writeByte_esc_iff (hw : Shows cells w ph) :
    writeByte 0x1B w = writeByte 0x1B { w with ansiState := .none } ↔ ∀ body, ph ≠ .csi body := by
  unfold writeByte
  rw [bind_ok (get_apply w)]
  cases ph with
  | plain =>
    rw [show w.ansiState = .none from hw.phase]
    exact iff_of_true rfl fun body h => nomatch h
  | esc =>
    rw [show w.ansiState = .seenEsc from hw.phase]
    exact iff_of_true rfl fun body h => nomatch h
  | csi body =>
    -- the byte is taken for a parameter: the writer stays inside the sequence
    rw [show w.ansiState = .inCsi from hw.phase.1]
    refine iff_of_false (fun h => ?_) fun h => h body rfl
    obtain ⟨w', hrun, hw'⟩ := pushCsi_runs body 0x1B w hw
    have h' : pushCsi 0x1B w = (.ok (), { w with ansiState := .seenEsc }) := h
    rw [hrun] at h'
    have hstate := hw'.phase.1
    rw [(Prod.mk.inj h').2] at hstate
    cases hstate

/-! ## The promise of the console -/

/-- The bytes that reach `write_byte` when the strings are printed. -/
def stream (strings : List (List UInt8)) : List UInt8 := strings.flatten.map screened

lemma printAll_eq (strings : List (List UInt8)) :
    printAll strings = writeBytes (stream strings) := by
  unfold printAll writeBytes stream
  rw [each_map, each_flatten]
  rfl

/-- What printing promises: it comes back; at every point the column is in the row,
the parameters are in their buffer and no cell outside the screen has changed; and
an ESC starts a sequence as if the text began with it. -/
structure Total (cells : Nat → ScreenChar) (strings : List (List UInt8)) : Prop where
  returns : (printAll strings (start cells)).1 = .ok ()
  inside : ∀ p w, p <+: stream strings → writeBytes p (start cells) = (.ok (), w) →
    w.columnPosition ≤ bufferWidth ∧ w.csiLen ≤ w.csiBuf.toList.length
      ∧ ∀ k, bufferHeight * bufferWidth ≤ k → w.cells k = cells k
  restarts : ∀ p w, p ++ [0x1B] <+: stream strings → writeBytes p (start cells) = (.ok (), w) →
    writeByte 0x1B w = writeByte 0x1B { w with ansiState := .none }

/-- Behind every `ESC [` no other ESC comes before the final byte, and if there is a
final byte, the numbers in the first 16 bytes are `u32`s. -/
def Tame (s : List UInt8) : Prop :=
  ∀ p body q, s = p ++ 0x1B :: 0x5B :: (body ++ q) → (∀ b ∈ body, isFinal b = false) →
    (0x1B : UInt8) ∉ body ∧ ∀ f q', q = f :: q' → isFinal f = true → Numbers (body.take 16)

/-- The promise in terms of the phase. -/
lemma total_iff_phase (cells : Nat → ScreenChar) (strings : List (List UInt8)) :
    Total cells strings ↔ NoOverflow (stream strings)
      ∧ ∀ p, p ++ [0x1B] <+: stream strings → ∀ body, Phase.after p ≠ .csi body := by
  constructor
  · intro h
    rcases hrun : writeBytes (stream strings) (start cells) with ⟨o, w⟩
    have hret := h.returns
    rw [printAll_eq, hrun] at hret
    rw [show o = .ok () from hret] at hrun
    obtain ⟨-, hno⟩ := writeBytes_ok hrun
    refine ⟨hno, fun p hp => ?_⟩
    have hpno : NoOverflow p := fun p' b hp' =>
      hno p' b (hp'.trans ((prefix_append _ _).trans hp))
    have hruns : Runs (Shows cells) (writeBytes p) .plain (.ok ()) (after p) :=
      writeBytes_runs hpno
    obtain ⟨w', hrun', hw'⟩ := hruns _ (start_shows cells)
    exact (writeByte_esc_iff hw').mp (h.restarts p w' hp hrun')
  · intro ⟨hno, hesc⟩
    refine ⟨?_, fun p w _ hrun => ?_, fun p w hp hrun => ?_⟩
    · rw [printAll_eq]
      exact (writeBytes_runs hno).outcome (start_shows cells)
    · obtain ⟨hw, -⟩ := writeBytes_ok hrun
      refine ⟨hw.column, ?_, hw.outside⟩
      rw [Vector.length_toList]
      exact hw.length
    · obtain ⟨hw, -⟩ := writeBytes_ok hrun
      exact (writeByte_esc_iff hw).mpr (hesc p hp)

/-- The console keeps its promise for exactly the texts that are tame. -/
theorem total_iff (cells : Nat → ScreenChar) (strings : List (List UInt8)) :
    Total cells strings ↔ Tame (stream strings) := by
  rw [total_iff_phase]
  constructor
  · intro ⟨hno, hesc⟩ p body q hs hbody
    -- the ESC is not inside a sequence, so what follows it is one
    have hp : ∀ b, Phase.after p ≠ .csi b := by
      refine hesc p ⟨0x5B :: (body ++ q), ?_⟩
      rw [hs]
      simp
    refine ⟨fun hmem => ?_, fun f q' hq hfinal => ?_⟩
    · obtain ⟨b₁, b₂, rfl⟩ := append_of_mem hmem
      refine hesc (p ++ 0x1B :: 0x5B :: b₁) ⟨b₂ ++ q, ?_⟩ b₁ ?_
      · rw [hs]
        simp
      · exact Phase.after_sequence hp b₁ fun b hb => hbody b (mem_append_left _ hb)
    · refine Classical.not_not.mp fun hn => hno (p ++ 0x1B :: 0x5B :: body) f ⟨q', ?_⟩ ?_
      · rw [hs, hq]
        simp
      · rw [Phase.after_sequence hp body hbody]
        exact ⟨hfinal, hn⟩
  · intro h
    constructor
    · intro p b ⟨q, hq⟩ ho
      rcases hph : Phase.after p with _ | _ | body
      · rw [hph] at ho
        exact ho
      · rw [hph] at ho
        exact ho
      · rw [hph] at ho
        obtain ⟨p', rfl, hbody⟩ := Phase.after_eq_csi p body hph
        exact ho.2 ((h p' body (b :: q) (by rw [← hq]; simp) hbody).2 b q rfl ho.1)
    · intro p ⟨q, hq⟩ body hph
      obtain ⟨p', rfl, hbody⟩ := Phase.after_eq_csi p body hph
      refine (h p' (body ++ [0x1B]) q (by rw [← hq]; simp) fun b hb => ?_).1 (by simp)
      rcases mem_append.mp hb with hb | hb
      · exact hbody b hb
      · rw [mem_singleton.mp hb]
        decide

/-- A screen of blanks. -/
def blankScreen : Nat → ScreenChar := fun _ => ⟨0x20, ⟨0⟩⟩

/-- `ESC [ 99999999999 m` panics, and in `ESC [ 3 ESC [ 0 m` the second sequence
is not seen. -/
theorem not_total_overflow_restart :
    ¬Total blankScreen [[0x1B, 0x5B] ++ List.replicate 11 0x39 ++ [0x6D]]
      ∧ ¬Total blankScreen [[0x1B, 0x5B, 0x33, 0x1B, 0x5B, 0x30, 0x6D]] := by
  constructor
  · intro h
    have hpanic : (printAll [[0x1B, 0x5B] ++ replicate 11 0x39 ++ [0x6D]]
        (start blankScreen)).1 = .panic := by decide +kernel
    exact nomatch hpanic.symm.trans h.returns
  · intro h
    -- up to the second ESC: the writer is inside the first sequence and stays there
    have hstay : (writeBytes [0x1B, 0x5B, 0x33] (start blankScreen)).1 = .ok ()
        ∧ (writeByte 0x1B (writeBytes [0x1B, 0x5B, 0x33] (start blankScreen)).2).2.ansiState
          = .inCsi := by decide +kernel
    obtain ⟨hrun, hstate⟩ := hstay
    rw [h.restarts [0x1B, 0x5B, 0x33] (writeBytes [0x1B, 0x5B, 0x33] (start blankScreen)).2
      ⟨[0x5B, 0x30, 0x6D], rfl⟩ (Prod.ext hrun rfl)] at hstate
    cases hstate

end Writer

end RustOs.Console
