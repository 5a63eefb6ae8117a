import AmuleD.Bytes.LittleEndian

open littleendian

/-! Reading back values in the distinguished encoding: a tag, the length of the content, and the content. -/

namespace der

/-- The number that a big-endian byte string stands for. -/
def number (bytes : List UInt8) : Nat := decode bytes.reverse

/-- A length and what follows it. -/
def read_length : List UInt8 → Option (Nat × List UInt8)
  | [] => none
  | first :: rest =>
    if first.toNat < 0x80 then some (first.toNat, rest)
    else if first.toNat - 0x80 ≤ rest.length then
      some (number (rest.take (first.toNat - 0x80)), rest.drop (first.toNat - 0x80))
    else none

/-- The content behind a tag and its length, and what follows it. -/
def read_content (tag : UInt8) : List UInt8 → Option (List UInt8 × List UInt8)
  | [] => none
  | first :: rest =>
    if first = tag then
      (read_length rest).bind fun (length, body) =>
        if length ≤ body.length then some (body.take length, body.drop length) else none
    else none

/-- An integer that is not negative, and what follows it. -/
def read_unsigned (bytes : List UInt8) : Option (Nat × List UInt8) :=
  (read_content 0x02 bytes).bind fun (content, rest) =>
    if (content.headD 0x80).toNat < 0x80 then some (number content, rest) else none

/-- Two integers that a sequence consists of, and what follows it. -/
def read_pair (bytes : List UInt8) : Option ((Nat × Nat) × List UInt8) :=
  (read_content 0x30 bytes).bind fun (content, rest) =>
    (read_unsigned content).bind fun (first, content) =>
      (read_unsigned content).bind fun (second, content) =>
        if content = [] then some ((first, second), rest) else none

variable {content header rest : List UInt8} {value : Nat}

theorem number_reverse_encode {width : Nat} (hfits : value < 256 ^ width) :
    number (encode width value).reverse = value := by
  rw [number, List.reverse_reverse, decode_encode hfits]

/-- A leading zero does not change a number. -/
theorem number_cons_zero (bytes : List UInt8) : number (0 :: bytes) = number bytes := by
  rw [number, List.reverse_cons, decode_append]
  simp [decode, number]

theorem read_length_short (hshort : value < 0x80) (rest : List UInt8) :
    read_length (UInt8.ofNat value :: rest) = some (value, rest) := by
  have hbyte : (UInt8.ofNat value).toNat = value := by
    rw [UInt8.toNat_ofNat']
    omega
  rw [read_length, hbyte, if_pos hshort]

theorem read_length_long (hcount : content.length < 0x80) (rest : List UInt8) :
    read_length (UInt8.ofNat (0x80 + content.length) :: (content ++ rest)) = some (number content, rest) := by
  have hbyte : (UInt8.ofNat (0x80 + content.length)).toNat = 0x80 + content.length := by
    rw [UInt8.toNat_ofNat']
    omega
  rw [read_length, hbyte, if_neg (by omega), Nat.add_sub_cancel_left, if_pos (by simp), List.take_left, List.drop_left]

/-- A header that announces the content that follows it. -/
def Announces (header content : List UInt8) : Prop := ∀ rest, read_length (header ++ rest) = some (content.length, rest)

theorem read_content_of (hheader : Announces header content) (tag : UInt8) (rest : List UInt8) :
    read_content tag (tag :: (header ++ (content ++ rest))) = some (content, rest) := by
  rw [read_content, if_pos rfl, hheader, Option.bind_some]
  simp

theorem read_unsigned_of (hheader : Announces header content) (hpositive : (content.headD 0x80).toNat < 0x80)
    (rest : List UInt8) : read_unsigned (0x02 :: (header ++ (content ++ rest))) = some (number content, rest) := by
  simp only [read_unsigned, read_content_of hheader, Option.bind_some, if_pos hpositive]

/-- An encoding of an integer, whatever follows it. -/
def Unsigned (bytes : List UInt8) (value : Nat) : Prop := ∀ rest, read_unsigned (bytes ++ rest) = some (value, rest)

theorem read_pair_of {first second : List UInt8} {value' : Nat} (hfirst : Unsigned first value)
    (hsecond : Unsigned second value') (hheader : Announces header (first ++ second)) (rest : List UInt8) :
    read_pair (0x30 :: (header ++ ((first ++ second) ++ rest))) = some ((value, value'), rest) := by
  have hlast := hsecond []
  rw [List.append_nil] at hlast
  simp only [read_pair, read_content_of hheader, Option.bind_some, hfirst second, hlast, if_true]

end der
