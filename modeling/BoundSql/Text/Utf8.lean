/-!
UTF-8.  `decode?` reads a byte sequence as characters and refuses every sequence that is not
well formed (overlong forms, surrogates, code points above U+10FFFF, cut characters), and
`withinBytes` is the longest beginning of a text that fits a number of bytes.
-/

namespace BoundSql.Text

/-- The low six bits of a continuation byte, `10xxxxxx`. -/
def continuation? (b : UInt8) : Option Nat :=
  if 0x80 ≤ b && b ≤ 0xBF then some (b.toNat - 0x80) else none

/-- The character of a code point that lies in a range and is no surrogate. -/
def scalar? (low high n : Nat) : Option Char :=
  if h : n.isValidChar then
    if low ≤ n && n ≤ high then some (Char.ofNatAux n h) else none
  else none

/-- The characters that a byte sequence encodes, if it is well-formed UTF-8. -/
def decodeChars? : List UInt8 → Option (List Char)
  | [] => some []
  | a :: rest =>
    if a ≤ 0x7F then do
      let c ← scalar? 0 0x7F a.toNat
      return c :: (← decodeChars? rest)
    else if 0xC2 ≤ a && a ≤ 0xDF then
      match rest with
      | b :: rest => do
        let c ← scalar? 0x80 0x7FF ((a.toNat - 0xC0) * 64 + (← continuation? b))
        return c :: (← decodeChars? rest)
      | _ => none
    else if 0xE0 ≤ a && a ≤ 0xEF then
      match rest with
      | b :: c :: rest => do
        let c ← scalar? 0x800 0xFFFF
          (((a.toNat - 0xE0) * 64 + (← continuation? b)) * 64 + (← continuation? c))
        return c :: (← decodeChars? rest)
      | _ => none
    else if 0xF0 ≤ a && a ≤ 0xF4 then
      match rest with
      | b :: c :: d :: rest => do
        let c ← scalar? 0x10000 0x10FFFF
          ((((a.toNat - 0xF0) * 64 + (← continuation? b)) * 64 + (← continuation? c)) * 64
            + (← continuation? d))
        return c :: (← decodeChars? rest)
      | _ => none
    else none

/-- The text that a byte sequence encodes, if it is well-formed UTF-8. -/
def decode? (bytes : List UInt8) : Option String := (decodeChars? bytes).map String.ofList

def encode (s : String) : List UInt8 := s.toUTF8.toList

/-- The longest beginning of a list of characters whose UTF-8 form has at most `budget` bytes. -/
def takeBytes : Nat → List Char → List Char
  | _, [] => []
  | budget, c :: cs =>
    if c.utf8Size ≤ budget then c :: takeBytes (budget - c.utf8Size) cs else []

/-- The longest beginning of a text that has at most `budget` bytes in UTF-8. -/
def withinBytes (budget : Nat) (s : String) : String := String.ofList (takeBytes budget s.toList)

/-- `takeBytes` keeps to its budget. -/
theorem utf8Size_takeBytes_le (budget : Nat) (cs : List Char) :
    (takeBytes budget cs).foldr (fun c n => c.utf8Size + n) 0 ≤ budget := by
  induction cs generalizing budget with
  | nil => simp [takeBytes]
  | cons c cs ih =>
    unfold takeBytes
    split
    · have := ih (budget - c.utf8Size)
      rw [List.foldr_cons]
      omega
    · simp

/-- `takeBytes` takes characters from the start and skips none. -/
theorem takeBytes_isPrefix (budget : Nat) (cs : List Char) : takeBytes budget cs <+: cs := by
  induction cs generalizing budget with
  | nil => exact List.nil_prefix
  | cons c cs ih =>
    unfold takeBytes
    split
    · exact (List.prefix_cons_inj c).2 (ih _)
    · exact List.nil_prefix

end BoundSql.Text
