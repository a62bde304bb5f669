/-!
# UTF-8

Decoding of UTF-8, one octet at a time. A machine that stands between
characters or inside of one takes or refuses the next octet (`advance`), and
refuses it exactly where no character goes on.

* `decode?` wants every octet to be taken;
* `decodeLossy` writes one `U+FFFD` for each refused octet or unfinished
  character, and goes on with the octet that broke it off.
-/

namespace ShadowCatalog.Text.Utf8

/-- A character that has begun. -/
structure Pending where
  /-- The octets still owed. -/
  owed : Nat
  /-- The least octet that may come next. -/
  least : Nat
  /-- The greatest octet that may come next. -/
  greatest : Nat
  /-- The bits read so far. -/
  bits : Nat
  deriving DecidableEq, Repr

/-- What taking an octet leads to. -/
inductive Step
  /-- It ends a character. -/
  | ends (c : Char)
  /-- It begins or goes on with a character. -/
  | goesOn (p : Pending)
  /-- It is refused. -/
  | refused
  deriving DecidableEq, Repr

/-- The first octet of a character. -/
def start (b : Nat) : Step :=
  if b ≤ 0x7F then .ends (Char.ofNat b)
  else if 0xC2 ≤ b ∧ b ≤ 0xDF then .goesOn ⟨1, 0x80, 0xBF, b - 0xC0⟩
  else if b = 0xE0 then .goesOn ⟨2, 0xA0, 0xBF, 0⟩
  else if b = 0xED then .goesOn ⟨2, 0x80, 0x9F, 0xD⟩
  else if 0xE1 ≤ b ∧ b ≤ 0xEF then .goesOn ⟨2, 0x80, 0xBF, b - 0xE0⟩
  else if b = 0xF0 then .goesOn ⟨3, 0x90, 0xBF, 0⟩
  else if 0xF1 ≤ b ∧ b ≤ 0xF3 then .goesOn ⟨3, 0x80, 0xBF, b - 0xF0⟩
  else if b = 0xF4 then .goesOn ⟨3, 0x80, 0x8F, 4⟩
  else .refused

/-- A later octet of a character. -/
def resume (p : Pending) (b : Nat) : Step :=
  if p.least ≤ b ∧ b ≤ p.greatest then
    let bits := p.bits * 64 + (b - 0x80)
    if p.owed ≤ 1 then .ends (Char.ofNat bits) else .goesOn ⟨p.owed - 1, 0x80, 0xBF, bits⟩
  else .refused

/-- The next octet, between characters or inside of one. -/
def advance : Option Pending → Nat → Step
  | none, b => start b
  | some p, b => resume p b

/-- The characters of the octets, from where the machine stands. -/
def decodeFrom? : Option Pending → List UInt8 → Option (List Char)
  | none, [] => some []
  | some _, [] => none
  | p, b :: bs =>
    match advance p b.toNat with
    | .ends c => (decodeFrom? none bs).map (c :: ·)
    | .goesOn q => decodeFrom? (some q) bs
    | .refused => none

/-- The characters of well-formed octets. -/
def decode? (bs : List UInt8) : Option (List Char) :=
  decodeFrom? none bs

/-- The character that stands for what is not UTF-8. -/
def replacement : Char := Char.ofNat 0xFFFD

/-- The characters an octet gives between characters, and where the machine
    stands after it. -/
def startLossy (b : Nat) : List Char × Option Pending :=
  match start b with
  | .ends c => ([c], none)
  | .goesOn q => ([], some q)
  | .refused => ([replacement], none)

/-- The characters an octet gives anywhere, and where the machine stands after
    it. An octet that breaks a character off begins anew. -/
def stepLossy : Option Pending → Nat → List Char × Option Pending
  | none, b => startLossy b
  | some p, b =>
    match resume p b with
    | .ends c => ([c], none)
    | .goesOn q => ([], some q)
    | .refused =>
      let (cs, q) := startLossy b
      (replacement :: cs, q)

/-- The characters of any octets, from where the machine stands. -/
def decodeLossyFrom : Option Pending → List UInt8 → List Char
  | none, [] => []
  | some _, [] => [replacement]
  | p, b :: bs =>
    let (cs, q) := stepLossy p b.toNat
    cs ++ decodeLossyFrom q bs

/-- The characters of any octets. -/
def decodeLossy (bs : List UInt8) : String :=
  String.ofList (decodeLossyFrom none bs)

/-- The octets of a text. -/
def encode (s : String) : List UInt8 :=
  s.toUTF8.toList

end ShadowCatalog.Text.Utf8
