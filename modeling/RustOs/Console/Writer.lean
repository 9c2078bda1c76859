import RustOs.Lib.Each

/-!
# The text console

The `Writer` of `src/vga_buffer.rs`: it prints on the bottom row of a screen of
25 rows of 80 cells, scrolls, and interprets the escape sequences it knows with a
machine of three states. The screen is memory from `0xb8000` on, one cell after
the other; an index past the end of a row or of the screen panics, as the array
access of the source does, and so does an arithmetic overflow.

The parameters of an escape sequence are collected in `csi_buf` and read by
`handle_csi` when its final byte comes. The list `params` of the model is
`params[..np]` of the source.
-/

namespace RustOs.Console

open Lib

/-! ## Colours -/

inductive Color where
  | black | blue | green | cyan | red | magenta | brown | lightGray
  | darkGray | lightBlue | lightGreen | lightCyan | lightRed | pink | yellow | white
  deriving DecidableEq, Repr

/-- `color as u8`. -/
def Color.toU8 : Color → UInt8
  | .black => 0
  | .blue => 1
  | .green => 2
  | .cyan => 3
  | .red => 4
  | .magenta => 5
  | .brown => 6
  | .lightGray => 7
  | .darkGray => 8
  | .lightBlue => 9
  | .lightGreen => 10
  | .lightCyan => 11
  | .lightRed => 12
  | .pink => 13
  | .yellow => 14
  | .white => 15

/-- `from_u8`: white for what is no colour. -/
def Color.fromU8 (value : UInt8) : Color :=
  ([.black, .blue, .green, .cyan, .red, .magenta, .brown, .lightGray, .darkGray, .lightBlue,
    .lightGreen, .lightCyan, .lightRed, .pink, .yellow, .white] : List Color).getD
      value.toNat .white

/-- `ansi_fg`: the colours of 30–37 and 40–47. -/
def ansiFg (idx : Nat) : Color :=
  ([.black, .red, .green, .brown, .blue, .magenta, .cyan, .lightGray] : List Color).getD idx .white

/-- `ansi_bright`: the colours of 90–97 and 100–107. -/
def ansiBright (idx : Nat) : Color :=
  ([.darkGray, .lightRed, .lightGreen, .yellow, .lightBlue, .pink, .lightCyan, .white]
    : List Color).getD idx .white

structure ColorCode where
  code : UInt8
  deriving DecidableEq, Repr

/-- `ColorCode::new`. -/
def ColorCode.new (foreground background : Color) : ColorCode :=
  ⟨background.toU8 <<< 4 ||| foreground.toU8⟩

/-! ## The screen -/

structure ScreenChar where
  asciiCharacter : UInt8
  colorCode : ColorCode
  deriving DecidableEq, Repr

def bufferHeight : Nat := 25

def bufferWidth : Nat := 80

inductive AnsiState where
  | none
  | seenEsc
  | inCsi
  deriving DecidableEq, Repr

/-- The writer, with the memory its buffer lies in and the cursor register it
sets. -/
structure Writer where
  columnPosition : Nat
  colorCode : ColorCode
  /-- Cell `row * 80 + col` of the memory at `0xb8000`. -/
  cells : Nat → ScreenChar
  ansiState : AnsiState
  csiBuf : Vector UInt8 16
  csiLen : Nat
  fg : Color
  bg : Color
  cursor : Nat

namespace Writer

/-- The writer of `WRITER`, over whatever the screen shows. -/
def start (cells : Nat → ScreenChar) : Writer where
  columnPosition := 0
  colorCode := ColorCode.new .yellow .black
  cells := cells
  ansiState := .none
  csiBuf := Vector.replicate 16 0
  csiLen := 0
  fg := .yellow
  bg := .black
  cursor := (bufferHeight - 1) * bufferWidth

/-- A blank in the current colours. -/
def blank (w : Writer) : ScreenChar := ⟨0x20, w.colorCode⟩

/-- `buffer.chars[row][col].write(c)`. -/
def writeCell (row col : Nat) (c : ScreenChar) : Prog Writer Empty Unit := fun w =>
  if row < bufferHeight ∧ col < bufferWidth then
    (.ok (), { w with cells := fun k => if k = row * bufferWidth + col then c else w.cells k })
  else (.panic, w)

/-- `buffer.chars[row][col].read()`. -/
def readCell (row col : Nat) : Prog Writer Empty ScreenChar := fun w =>
  if row < bufferHeight ∧ col < bufferWidth then (.ok (w.cells (row * bufferWidth + col)), w)
  else (.panic, w)

/-- `self.column_position = col`. -/
def setColumn (col : Nat) : Prog Writer Empty Unit := fun w =>
  (.ok (), { w with columnPosition := col })

/-- `update_cursor`: the position goes out in two bytes. -/
def updateCursor : Prog Writer Empty Unit := do
  let w ← Prog.get
  let pos ← Prog.lift (Outcome.uadd 64 ((bufferHeight - 1) * bufferWidth) w.columnPosition)
  Prog.set { w with cursor := pos % 2 ^ 16 }

/-- `clear_row`. -/
def clearRow (row : Nat) : Prog Writer Empty Unit := do
  let w ← Prog.get
  Prog.each (List.range bufferWidth) fun col => writeCell row col w.blank

/-- `for col in self.column_position..BUFFER_WIDTH` of the two erasures: blanks up
to the end of the bottom row. -/
def eraseLine : Prog Writer Empty Unit := do
  let w ← Prog.get
  Prog.each (List.range' w.columnPosition (bufferWidth - w.columnPosition)) fun col =>
    writeCell (bufferHeight - 1) col w.blank

/-- One cell of the scroll in `new_line`. -/
def copyUp (row col : Nat) : Prog Writer Empty Unit := do
  let character ← readCell row col
  let above ← Prog.lift (Outcome.usub row 1)
  writeCell above col character

/-- `new_line`. -/
def newLine : Prog Writer Empty Unit := do
  Prog.each (List.range' 1 (bufferHeight - 1)) fun row =>
    Prog.each (List.range bufferWidth) fun col => copyUp row col
  clearRow (bufferHeight - 1)
  setColumn 0
  updateCursor

/-- `backspace`. -/
def backspace : Prog Writer Empty Unit := do
  let w ← Prog.get
  if w.columnPosition > 0 then do
    setColumn (w.columnPosition - 1)
    writeCell (bufferHeight - 1) (w.columnPosition - 1) w.blank
    updateCursor
  else pure ()

/-! ## Escape sequences -/

/-- The foreground and background with the code they make. -/
def setColors (fg bg : Color) : Prog Writer Empty Unit := fun w =>
  (.ok (), { w with fg := fg, bg := bg, colorCode := ColorCode.new fg bg })

/-- `sgr_reset`. -/
def sgrReset : Prog Writer Empty Unit := setColors .yellow .black

/-- `apply_sgr`. -/
def applySgr (p : Nat) : Prog Writer Empty Unit := do
  let w ← Prog.get
  if p = 0 then sgrReset
  else if p = 1 then
    setColors (if w.fg.toU8 < 8 then Color.fromU8 (w.fg.toU8 + 8) else w.fg) w.bg
  else if p = 22 then
    setColors (if 8 ≤ w.fg.toU8 then Color.fromU8 (w.fg.toU8 - 8) else w.fg) w.bg
  else if 30 ≤ p ∧ p ≤ 37 then setColors (ansiFg (p - 30)) w.bg
  else if p = 39 then setColors .yellow w.bg
  else if 40 ≤ p ∧ p ≤ 47 then setColors w.fg (ansiFg (p - 40))
  else if p = 49 then setColors w.fg .black
  else if 90 ≤ p ∧ p ≤ 97 then setColors (ansiBright (p - 90)) w.bg
  else if 100 ≤ p ∧ p ≤ 107 then setColors w.fg (ansiBright (p - 100))
  else pure ()

/-- `erase_in_display`. -/
def eraseInDisplay (mode : Nat) : Prog Writer Empty Unit :=
  if mode = 2 ∨ mode = 1 then do
    let w ← Prog.get
    Prog.each (List.range bufferHeight) fun r =>
      Prog.each (List.range bufferWidth) fun c => writeCell r c w.blank
    setColumn 0
    updateCursor
  else eraseLine

/-- What the loop over the parameter bytes carries: `params[..np]`, `cur` and
`have_digit`. -/
structure Params where
  params : List Nat
  cur : Nat
  haveDigit : Bool

/-- `params[np] = cur; np += 1`, as long as there is room. -/
def Params.push (st : Params) : List Nat :=
  if st.params.length < 8 then st.params ++ [st.cur] else st.params

/-- `is_ascii_digit`. -/
def isDigit (b : UInt8) : Bool := 0x30 ≤ b && b ≤ 0x39

/-- One turn of the loop. The number is a `u32`. -/
def Params.step (st : Params) (b : UInt8) : Outcome Empty Params :=
  if isDigit b then do
    let scaled ← Outcome.umul 32 st.cur 10
    let cur ← Outcome.uadd 32 scaled (b.toNat - 0x30)
    pure { st with cur := cur, haveDigit := true }
  else if b = 0x3B then pure ⟨st.push, 0, false⟩
  else pure st

/-- The loop over the parameter bytes. -/
def parseParams : List UInt8 → Params → Outcome Empty Params
  | [], st => .ok st
  | b :: bs, st => do
    let st ← st.step b
    parseParams bs st

/-- The `match` on the final byte. -/
def applyCsi (finalByte : UInt8) (params : List Nat) : Prog Writer Empty Unit :=
  if finalByte = 0x6D then
    if params = [] then sgrReset else Prog.each params applySgr
  else if finalByte = 0x4A then eraseInDisplay (params.headD 0)
  else if finalByte = 0x4B then eraseLine
  else if finalByte = 0x48 ∨ finalByte = 0x66 then do
    setColumn (min (params.getD 1 1 - 1) (bufferWidth - 1))
    updateCursor
  else if finalByte = 0x43 then do
    let w ← Prog.get
    let col ← Prog.lift (Outcome.uadd 64 w.columnPosition (params.headD 1))
    setColumn (min col (bufferWidth - 1))
    updateCursor
  else if finalByte = 0x44 then do
    let w ← Prog.get
    setColumn (w.columnPosition - params.headD 1)
    updateCursor
  else pure ()

/-- `handle_csi`. -/
def handleCsi (finalByte : UInt8) : Prog Writer Empty Unit := do
  let w ← Prog.get
  let bytes ← Prog.lift
    (if w.csiLen ≤ 16 then .ok (w.csiBuf.toList.take w.csiLen) else .panic)
  let st ← Prog.lift (parseParams bytes ⟨[], 0, false⟩)
  applyCsi finalByte (if st.haveDigit then st.push else st.params)

/-! ## Bytes -/

/-- The `if` in front of the cell write of `write_byte`. -/
def wrapLine : Prog Writer Empty Unit := do
  let w ← Prog.get
  if w.columnPosition ≥ bufferWidth then newLine else pure ()

variable (byte : UInt8)

/-- The last arm of `write_byte`. -/
def putChar : Prog Writer Empty Unit := do
  wrapLine
  let w ← Prog.get
  writeCell (bufferHeight - 1) w.columnPosition ⟨byte, w.colorCode⟩
  let col ← Prog.lift (Outcome.uadd 64 w.columnPosition 1)
  setColumn col
  updateCursor

/-- `self.ansi_state = state`. -/
def setState (state : AnsiState) : Prog Writer Empty Unit := fun w =>
  (.ok (), { w with ansiState := state })

/-- The part of `write_byte` behind the escape machine. -/
def plainByte : Prog Writer Empty Unit :=
  if byte = 0x1B then setState .seenEsc
  else if byte = 0x0A then newLine
  else if byte = 0x08 then backspace
  else if byte = 0x0D then do
    setColumn 0
    updateCursor
  else putChar byte

/-- A byte that ends an escape sequence. -/
def isFinal : Bool := 0x40 ≤ byte && byte ≤ 0x7E

/-- A parameter byte goes into `csi_buf` if there is room. -/
def pushCsi : Prog Writer Empty Unit := fun w =>
  if h : w.csiLen < 16 then
    (.ok (), { w with csiBuf := w.csiBuf.set w.csiLen byte h, csiLen := w.csiLen + 1 })
  else (.ok (), w)

/-- `write_byte`. -/
def writeByte : Prog Writer Empty Unit := do
  let w ← Prog.get
  match w.ansiState with
  | .seenEsc =>
    if byte = 0x5B then Prog.set { w with ansiState := .inCsi, csiLen := 0 }
    else do
      setState .none
      plainByte byte
  | .inCsi =>
    if isFinal byte then do
      setState .none
      handleCsi byte
    else pushCsi byte
  | .none => plainByte byte

/-- What `write_string` hands on for a byte: a placeholder for control
characters the machine does not know. -/
def screened : UInt8 :=
  if (0x20 ≤ byte ∧ byte ≤ 0x7E) ∨ byte = 0x0A ∨ byte = 0x08 ∨ byte = 0x1B ∨ byte = 0x0D then byte
  else if 0x80 ≤ byte then byte
  else 0xFE

/-- `write_string`. -/
def writeString (s : List UInt8) : Prog Writer Empty Unit :=
  Prog.each s fun byte => writeByte (screened byte)

/-- One string printed after the other. -/
def printAll (strings : List (List UInt8)) : Prog Writer Empty Unit :=
  Prog.each strings writeString

end Writer

end RustOs.Console
