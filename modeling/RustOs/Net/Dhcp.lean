import RustOs.Net.Packet

/-!
# DHCP messages

`net/dhcp.rs`: a fixed header of 240 bytes that ends in the magic cookie, and behind it
options of a tag, a length and a value each, up to the tag 255. The tag 0 is padding and
has no length.

What `build` writes `parse` reads back, option by option, and whatever `parse` is given it
returns, with values that stand in the input (`parse_build_and_safe`). A tag of 0 or 255, or
a value longer than its length byte can say, would not come back.

A function that returns an `Option` ends in `err ()` here for `None`.
-/

namespace RustOs.Net.Dhcp

open Lib Outcome List Nat UInt8

/-- `HTYPE_ETHERNET`. -/
def htypeEthernet : UInt8 := 1

/-- `HLEN_ETHERNET`. -/
def hlenEthernet : UInt8 := 6

/-- `MAGIC_COOKIE`. -/
def magicCookie : UInt32 := 0x63825363

/-- `[u8; n]`. -/
abbrev ByteArray (n : Nat) : Type := { bytes : List UInt8 // bytes.length = n }

/-- `copy_from_slice` into an array, which panics if the lengths differ. -/
def copyFromSlice {ε : Type} (n : Nat) (slice : List UInt8) : Outcome ε (ByteArray n) :=
  if h : slice.length = n then .ok ⟨slice, h⟩ else .panic

/-- `DhcpMessage`. -/
structure DhcpMessage where
  op : UInt8
  xid : UInt32
  ciaddr : Ipv4Addr
  yiaddr : Ipv4Addr
  siaddr : Ipv4Addr
  giaddr : Ipv4Addr
  chaddr : ByteArray 16
  options : List (UInt8 × List UInt8)

namespace DhcpMessage

/-- An option as `build` writes it. -/
def encodeOption (o : UInt8 × List UInt8) : List UInt8 := o.1 :: UInt8.ofNat o.2.length :: o.2

/-- `build`. The places the source leaves at zero are the seconds and flags, the tail of the
hardware address, and the server and file names. -/
def build (m : DhcpMessage) : List UInt8 :=
  [m.op, htypeEthernet, hlenEthernet, 0] ++ (be32 m.xid ++ (List.replicate 8 0 ++
    (m.ciaddr.octets ++ (m.yiaddr.octets ++ (m.siaddr.octets ++ (m.giaddr.octets ++
      (List.replicate 12 0 ++ (m.chaddr.val ++ (List.replicate 176 0 ++ (be32 magicCookie ++
        (m.options.flatMap encodeOption ++ [0xFF])))))))))))

/-- The loop of `parse` over the options. -/
def parseOptions (buf : List UInt8) (i : Nat) : Outcome Unit (List (UInt8 × List UInt8)) :=
  if _ : i < buf.length then do
    let tag ← byte buf i
    if tag = 0 then parseOptions buf (i + 1)
    else if tag = 0xFF then .ok []
    else if i + 1 ≥ buf.length then .ok []
    else do
      let len ← byte buf (i + 1)
      if i + 2 + len.toNat > buf.length then .ok []
      else do
        let value ← range buf (i + 2) (i + 2 + len.toNat)
        let options ← parseOptions buf (i + 2 + len.toNat)
        return (tag, value) :: options
  else .ok []
  termination_by buf.length - i

/-- `parse`. -/
def parse (buf : List UInt8) : Outcome Unit DhcpMessage :=
  if buf.length < 240 then .err ()
  else do
    let cookie ← four ofBe32 buf 236
    if cookie ≠ magicCookie then .err ()
    else do
      let slice ← range buf 44 60
      let chaddr ← copyFromSlice 16 slice
      let op ← byte buf 0
      let xid ← four ofBe32 buf 4
      let ciaddr ← four Ipv4Addr.mk buf 16
      let yiaddr ← four Ipv4Addr.mk buf 20
      let siaddr ← four Ipv4Addr.mk buf 24
      let giaddr ← four Ipv4Addr.mk buf 28
      let options ← parseOptions buf 240
      return { op, xid, ciaddr, yiaddr, siaddr, giaddr, chaddr, options }

/-! ## Any input -/

/-- The options of any buffer: the loop ends, and every value is a part of the buffer. -/
lemma parseOptions_safe (buf : List UInt8) (i : Nat) :
    ∃ options, parseOptions buf i = .ok options ∧ ∀ o ∈ options, o.2 <:+: buf := by
  have hnone : ∃ options : List (UInt8 × List UInt8), (.ok [] : Outcome Unit _) = .ok options ∧
      ∀ o ∈ options, o.2 <:+: buf := ⟨[], rfl, by simp⟩
  rw [parseOptions]
  split
  next hi =>
    rw [byte_of_lt hi, ok_bind]
    split
    · exact parseOptions_safe buf (i + 1)
    split
    · exact hnone
    split
    · exact hnone
    next hlen =>
      rw [byte_of_lt (Nat.not_le.mp hlen), ok_bind]
      split
      · exact hnone
      next hvalue =>
        obtain ⟨options, heq, hin⟩ := parseOptions_safe buf (i + 2 + (buf[i + 1]).toNat)
        rw [range_of_le (Nat.le_add_right _ _) (Nat.not_lt.mp hvalue), ok_bind, heq]
        refine ⟨_, rfl, ?_⟩
        intro o ho
        rcases mem_cons.mp ho with rfl | ho
        · exact ( take_prefix _ _).isInfix.trans (drop_suffix _ _).isInfix
        · exact hin o ho
  next => exact hnone
  termination_by buf.length - i

/-- Any bytes can be parsed, and an option lies inside them. -/
lemma parse_safe (buf : List UInt8) :
    (parse buf).Returns ∧ ∀ m, parse buf = .ok m → ∀ o ∈ m.options, o.2 <:+: buf := by
  obtain ⟨options, hoptions, hin⟩ := parseOptions_safe buf 240
  rw [parse]
  split
  · exact ⟨trivial, by rintro m ⟨⟩⟩
  next h =>
    rw [four_of_lt (by omega), ok_bind]
    split
    · exact ⟨trivial, by rintro m ⟨⟩⟩
    have hslice : ((buf.drop 44).take 16).length = 16 := by
      rw [length_take, length_drop]
      omega
    rw [range_of_le (by omega) (by omega), ok_bind, copyFromSlice, dif_pos hslice, ok_bind,
      byte_of_lt (by omega), ok_bind, four_of_lt (by omega), ok_bind,
        four_of_lt (by omega), ok_bind,
      four_of_lt (by omega), ok_bind, four_of_lt (by omega), ok_bind,
        four_of_lt (by omega), ok_bind,
      hoptions]
    refine ⟨trivial, ?_⟩
    intro m hm
    cases hm
    exact hin

/-! ## Round trip -/

/-- An option that comes back as it was written. -/
def Encodable (o : UInt8 × List UInt8) : Prop := o.1 ≠ 0 ∧ o.1 ≠ 255 ∧ o.2.length ≤ 255

/-- The options that were written are read back, from any offset. -/
lemma parseOptions_at {buf : List UInt8} : ∀ (options : List (UInt8 × List UInt8)) (i : Nat),
    (∀ o ∈ options, Encodable o) → At buf i (options.flatMap encodeOption ++ [0xFF]) →
      parseOptions buf i = .ok options := by
  intro options
  induction options with
  | nil =>
    intro i _ h
    have hi := h.le
    rw [parseOptions, dif_pos (lt_of_succ_le hi), h.byte]
    rfl
  | cons o options ih =>
    intro i hall h
    obtain ⟨tag, value⟩ := o
    obtain ⟨hpad, hend, hshort⟩ : tag ≠ 0 ∧ tag ≠ 255 ∧ value.length ≤ 255 := hall _ mem_cons_self
    have h : At buf i (tag :: ofNat value.length :: (value ++
        (options.flatMap encodeOption ++ [0xFF]))) := by
      rwa [flatMap_cons, append_assoc] at h
    have hlen : (ofNat value.length).toNat = value.length := by
      rw [toNat_ofNat', mod_eq_of_lt (lt_succ_of_le hshort)]
    have hvalue := h.tail.tail
    have hle := hvalue.left.le
    rw [parseOptions, dif_pos (by omega), h.byte, ok_bind, if_neg hpad, if_neg hend,
      if_neg (by omega), h.tail.byte, ok_bind, hlen, if_neg (Nat.not_lt.mpr hle), hvalue.left.range,
      ok_bind, ih _ (fun o ho => hall o (mem_cons_of_mem _ ho)) hvalue.right]
    rfl

/-- What is built is parsed back. -/
lemma parse_build {m : DhcpMessage} (hall : ∀ o ∈ m.options, Encodable o) :
    parse m.build = .ok m := by
  have h : At m.build 0 m.build := ⟨[], [], by rw [append_nil, nil_append], rfl⟩
  have hxid : At m.build 4 _ := h.right
  have hci : At m.build 16 _ := hxid.right.right
  have hyi : At m.build 20 _ := hci.right
  have hsi : At m.build 24 _ := hyi.right
  have hgi : At m.build 28 _ := hsi.right
  have hch : At m.build 44 _ := hgi.right.right
  have hcookie := hch.right.right
  rw [m.chaddr.property, length_replicate] at hcookie
  have hoptions : At m.build 240 _ := hcookie.right
  have hslice : (range m.build 44 60 : Outcome Unit _) = .ok m.chaddr.val := by
    rw [show 60 = 44 + m.chaddr.val.length by rw [m.chaddr.property]]
    exact hch.left.range
  rw [parse, if_neg (Nat.not_lt.mpr (Nat.le_trans (Nat.le_add_right _ _) hoptions.le)),
    hcookie.four, ok_bind, ofBe32_be32, if_neg fun hne => hne rfl, hslice, ok_bind, copyFromSlice,
    dif_pos m.chaddr.property, ok_bind, h.byte, ok_bind, hxid.four, ok_bind, ofBe32_be32, hci.four,
    ok_bind, hyi.four, ok_bind, hsi.four, ok_bind, hgi.four, ok_bind,
    parseOptions_at m.options 240 hall hoptions]
  rfl

/-- A message whose options are encodable comes back from its bytes, and no bytes make `parse`
panic or report a value that is not in them. -/
theorem parse_build_and_safe :
    (∀ m : DhcpMessage, (∀ o ∈ m.options, o.1 ≠ 0 ∧ o.1 ≠ 255 ∧ o.2.length ≤ 255) →
      parse m.build = .ok m) ∧
      ∀ buf, (parse buf).Returns ∧ ∀ m, parse buf = .ok m → ∀ o ∈ m.options, o.2 <:+: buf :=
  ⟨fun _ hall => parse_build hall, parse_safe⟩

/-- A message of the type DHCPDISCOVER. -/
def discover : DhcpMessage :=
  ⟨1, 7, .localhost, .localhost, .localhost, .localhost, ⟨List.replicate 16 0, rfl⟩, [(53, [1])]⟩

/-- A DISCOVER message. -/
theorem parse_build_discover : parse discover.build = .ok discover :=
  parse_build_and_safe.1 discover (by decide)

end DhcpMessage

end RustOs.Net.Dhcp
