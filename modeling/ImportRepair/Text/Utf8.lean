import ImportRepair.Text.Basic

/-!
# UTF-8

Bytes are cut into pieces: well-formed characters, and maximal ill-formed subparts. The strict
reader stops at the first ill-formed piece, the lenient one puts U+FFFD in the place of each, and
both work on the same pieces.

Results:
* `decode_eq_ok_iff`: the strict reader succeeds exactly if every piece is a character.
-/

namespace ImportRepair.Utf8

/-! ## Encoding -/

/-- A text that cannot be written because of a run of surrogates: the first of them, its index, and
the length of the run. -/
structure EncodeError where
  first : CodePoint
  position : Nat
  length : Nat
deriving DecidableEq, Repr

/-- The wording of an encoding error. -/
def EncodeError.message (e : EncodeError) : Text :=
  let subject : Text :=
    if e.length = 1 then
      "character '\\u" ++ Text.ofHex 4 e.first.val ++ "' in position " ++ Text.ofNat e.position
    else
      "characters in position " ++ Text.ofNat e.position ++ "-" ++
        Text.ofNat (e.position + e.length - 1)
  "'utf-8' codec can't encode " ++ subject ++ ": surrogates not allowed"

/-- A byte with the given value. -/
def octet (n : Nat) : UInt8 := UInt8.ofNat n

/-- The bytes of one code point. -/
def encodePoint (c : CodePoint) : List UInt8 :=
  let n := c.val
  if n < 0x80 then [octet n]
  else if n < 0x800 then [octet (0xC0 + n / 64), octet (0x80 + n % 64)]
  else if n < 0x10000 then
    [octet (0xE0 + n / 4096), octet (0x80 + n / 64 % 64), octet (0x80 + n % 64)]
  else
    [octet (0xF0 + n / 262144), octet (0x80 + n / 4096 % 64), octet (0x80 + n / 64 % 64),
      octet (0x80 + n % 64)]

/-- The bytes of a text, whatever its code points. -/
def encodeAll (t : Text) : List UInt8 := t.flatMap encodePoint

/-- The bytes of a text, or its first run of surrogates. -/
def encode (t : Text) : Except EncodeError (List UInt8) :=
  match t.findIdx? CodePoint.isSurrogate with
  | none => .ok (encodeAll t)
  | some k =>
    .error ⟨(t.drop k).headD 0, k, ((t.drop k).takeWhile CodePoint.isSurrogate).length⟩

/-! ## Pieces -/

/-- Why bytes are no character. -/
inductive Reason
  /-- No character starts with this byte. -/
  | invalidStart
  /-- The character goes on with a byte that it cannot have there. -/
  | invalidContinuation
  /-- The bytes end inside the character. -/
  | unexpectedEnd
deriving DecidableEq, Repr

/-- The wording of a reason. -/
def Reason.message : Reason → Text
  | .invalidStart => "invalid start byte"
  | .invalidContinuation => "invalid continuation byte"
  | .unexpectedEnd => "unexpected end of data"

/-- A character, or a maximal ill-formed subpart. -/
inductive Piece
  | character (c : CodePoint)
  | illFormed (bytes : List UInt8) (reason : Reason)
deriving DecidableEq, Repr

/-- A character whose bytes have come in part: those bytes, the value so far, the bytes still to
come, and the range of the next one. -/
structure Partial where
  bytes : List UInt8
  value : Nat
  missing : Nat
  low : UInt8
  high : UInt8

/-- The effect of a byte between characters: pieces that it completes, or a character begun. -/
def start (b : UInt8) : List Piece × Option Partial :=
  let n := b.toNat
  if n < 0x80 then ([.character (.clamp n)], none)
  else if 0xC2 ≤ n ∧ n ≤ 0xDF then ([], some ⟨[b], n - 0xC0, 1, 0x80, 0xBF⟩)
  else if n = 0xE0 then ([], some ⟨[b], 0, 2, 0xA0, 0xBF⟩)
  else if n = 0xED then ([], some ⟨[b], 0xD, 2, 0x80, 0x9F⟩)
  else if 0xE1 ≤ n ∧ n ≤ 0xEF then ([], some ⟨[b], n - 0xE0, 2, 0x80, 0xBF⟩)
  else if n = 0xF0 then ([], some ⟨[b], 0, 3, 0x90, 0xBF⟩)
  else if 0xF1 ≤ n ∧ n ≤ 0xF3 then ([], some ⟨[b], n - 0xF0, 3, 0x80, 0xBF⟩)
  else if n = 0xF4 then ([], some ⟨[b], 4, 3, 0x80, 0x8F⟩)
  else ([.illFormed [b] .invalidStart], none)

/-- The effect of a byte. One that cannot continue the character begun is read again as the first
of another. -/
def step (p : Option Partial) (b : UInt8) : List Piece × Option Partial :=
  match p with
  | none => start b
  | some p =>
    if p.low ≤ b ∧ b ≤ p.high then
      let value := p.value * 64 + b.toNat % 64
      if p.missing ≤ 1 then ([.character (.clamp value)], none)
      else ([], some ⟨p.bytes ++ [b], value, p.missing - 1, 0x80, 0xBF⟩)
    else
      let next := start b
      (.illFormed p.bytes .invalidContinuation :: next.1, next.2)

/-- The pieces of the bytes that follow a character begun. -/
def piecesFrom : Option Partial → List UInt8 → List Piece
  | none, [] => []
  | some p, [] => [.illFormed p.bytes .unexpectedEnd]
  | p, b :: bs =>
    let next := step p b
    next.1 ++ piecesFrom next.2 bs

/-- The pieces of a byte string. -/
def pieces (bytes : List UInt8) : List Piece := piecesFrom none bytes

/-! ## Decoding -/

/-- The first ill-formed subpart of a byte string, and where it stands. -/
structure DecodeError where
  position : Nat
  bytes : List UInt8
  reason : Reason
deriving DecidableEq, Repr

/-- The wording of a decoding error. -/
def DecodeError.message (e : DecodeError) : Text :=
  let subject : Text :=
    match e.bytes with
    | [b] => "byte 0x" ++ Text.ofHex 2 b.toNat ++ " in position " ++ Text.ofNat e.position
    | bs =>
      "bytes in position " ++ Text.ofNat e.position ++ "-" ++
        Text.ofNat (e.position + bs.length - 1)
  "'utf-8' codec can't decode " ++ subject ++ ": " ++ e.reason.message

/-- The characters of the pieces that start at an offset, up to the first that is none. -/
def readStrict (offset : Nat) : List Piece → Except DecodeError Text
  | [] => .ok []
  | .character c :: ps =>
    match readStrict (offset + (encodePoint c).length) ps with
    | .ok t => .ok (c :: t)
    | .error e => .error e
  | .illFormed bytes reason :: _ => .error ⟨offset, bytes, reason⟩

/-- The text of a byte string, which has to be well-formed. -/
def decode (bytes : List UInt8) : Except DecodeError Text := readStrict 0 (pieces bytes)

/-- The text of bytes that may end within a character, and the bytes of that character. -/
def decodePart (bytes : List UInt8) : Except DecodeError (Text × List UInt8) :=
  match decode bytes with
  | .ok t => .ok (t, [])
  | .error e =>
    if e.reason = .unexpectedEnd then (decode (bytes.take e.position)).map (·, e.bytes)
    else .error e

/-- What a piece reads as if ill-formed subparts are replaced. -/
def Piece.lenient : Piece → CodePoint
  | .character c => c
  | .illFormed _ _ => 0xFFFD

/-- The text of a byte string, with U+FFFD for each ill-formed subpart. -/
def decodeLenient (bytes : List UInt8) : Text := (pieces bytes).map Piece.lenient

theorem readStrict_eq_ok_iff {offset : Nat} {ps : List Piece} {t : Text} :
    readStrict offset ps = .ok t ↔ ps = t.map .character := by
  induction ps generalizing offset t with
  | nil => cases t <;> simp [readStrict]
  | cons p ps ih =>
    cases p with
    | illFormed bytes reason => cases t <;> simp [readStrict]
    | character c =>
      rw [readStrict]
      cases hr : readStrict (offset + (encodePoint c).length) ps with
      | ok u =>
        have hu := ih.1 hr
        cases t with
        | nil => simp
        | cons d t =>
          subst hu
          simp only [Except.ok.injEq, List.cons.injEq, List.map_cons, Piece.character.injEq]
          refine and_congr_right fun _ => ⟨fun h => h ▸ rfl, fun h => ?_⟩
          exact (List.map_inj_right fun a b hab => by injection hab).1 h
      | error e =>
        cases t with
        | nil => simp
        | cons d t =>
          simp only [reduceCtorEq, List.map_cons, List.cons.injEq, Piece.character.injEq,
            false_iff, not_and]
          intro _ hps
          rw [ih.2 hps] at hr
          cases hr

theorem decode_eq_ok_iff {bytes : List UInt8} {t : Text} :
    decode bytes = .ok t ↔ pieces bytes = t.map .character :=
  readStrict_eq_ok_iff

end ImportRepair.Utf8
