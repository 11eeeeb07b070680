import ComicCatalog.Text.Basic

/-! # Letters beyond ASCII in host names

Host names carry other letters than ASCII as letters, digits and hyphens: the
ASCII letters come first, and behind the last hyphen a row of whole numbers
tells where the others go, in the order of their code points. Each number is
written with digits to a varying base whose thresholds adapt to the numbers
before it.
-/

namespace ComicCatalog.Bootstring

/-- The character of a digit below thirty-six: letters, then decimal digits. -/
def digitChar (d : Nat) : Char :=
  if d < 26 then Char.ofNat (97 + d) else Char.ofNat (22 + d)

/-- The value of a digit. -/
def digit? (c : Char) : Option Nat :=
  if 'a' ≤ c ∧ c ≤ 'z' then some (c.toNat - 97)
  else if 'A' ≤ c ∧ c ≤ 'Z' then some (c.toNat - 65)
  else if '0' ≤ c ∧ c ≤ '9' then some (c.toNat - 22)
  else none

/-- Below this a digit at `position` is the last of its number. -/
def threshold (bias position : Nat) : Nat :=
  min 26 (max 1 (position - bias))

theorem threshold_pos (bias position : Nat) : 0 < threshold bias position := by
  unfold threshold
  omega

/-- Divide by thirty-five while the number is large, counting the divisions. -/
def shrink (delta : Nat) (count : Nat) : Nat × Nat :=
  if 455 < delta then shrink (delta / 35) (count + 1) else (delta, count)
termination_by delta

/-- The bias after a number that placed the `places`-th character. -/
def adapt (delta places : Nat) (first : Bool) : Nat :=
  let delta := if first then delta / 700 else delta / 2
  let (delta, count) := shrink (delta + delta / places) 0
  36 * count + 36 * delta / (delta + 38)

/-- The digits of a number. -/
def digitsFrom (bias position n : Nat) : List Char :=
  let t := threshold bias position
  if n < t then [digitChar n]
  else digitChar (t + (n - t) % (36 - t)) :: digitsFrom bias (position + 36) ((n - t) / (36 - t))
termination_by n
decreasing_by
  have := threshold_pos bias position
  exact Nat.lt_of_le_of_lt (Nat.div_le_self _ _) (by omega)

/-- What is known while characters are placed. -/
structure Placing where
  delta : Nat
  bias : Nat
  placed : Nat
  digits : List Char

/-- Pass one character of the name while the characters with code point `code`
are placed. -/
def Placing.pass (first : Nat) (code : Nat) (state : Placing) (c : Char) : Placing :=
  if c.toNat < code then { state with delta := state.delta + 1 }
  else if c.toNat = code then
    { delta := 0
      bias := adapt state.delta (state.placed + 1) (state.placed == first)
      placed := state.placed + 1
      digits := state.digits ++ digitsFrom state.bias 36 state.delta }
  else state

/-- Place the characters of each code point in turn. -/
def Placing.all (name : List Char) (first : Nat) : List Nat → Nat → Placing → Placing
  | [], _, state => state
  | code :: rest, next, state =>
      let state := { state with delta := state.delta + (code - next) * (state.placed + 1) }
      let state := name.foldl (Placing.pass first code) state
      Placing.all name first rest (code + 1) { state with delta := state.delta + 1 }

/-- A name with letters beyond ASCII. -/
def encode (name : List Char) : List Char :=
  let basic := name.filter (·.toNat < 128)
  let codes := ((name.filter (128 ≤ ·.toNat)).map Char.toNat).mergeSort.eraseDups
  let start : Placing := ⟨0, 72, basic.length, []⟩
  basic ++ (if basic.isEmpty then [] else ['-']) ++
    (Placing.all name basic.length codes 128 start).digits

/-- Read a number, added to `sum`, and what follows it. -/
def number? (bias position weight sum : Nat) : List Char → Option (Nat × List Char)
  | [] => none
  | c :: rest =>
      match digit? c with
      | none => none
      | some d =>
          let t := threshold bias position
          if d < t then some (sum + d * weight, rest)
          else number? bias (position + 36) (weight * (36 - t)) (sum + d * weight) rest

/-- Put characters in their places, as the numbers tell. -/
def place? (fuel : Nat) (code index bias : Nat) (first : Bool) (name digits : List Char) :
    Option (List Char) :=
  match fuel, digits with
  | 0, _ => none
  | _ + 1, [] => some name
  | fuel + 1, digits =>
      match number? bias 36 1 index digits with
      | none => none
      | some (sum, rest) =>
          let places := name.length + 1
          let code := code + sum / places
          if code.isValidChar then
            let position := sum % places
            place? fuel code (position + 1) (adapt (sum - index) places first) false
              (name.take position ++ Char.ofNat code :: name.drop position) rest
          else none

/-- The name that an encoded one spells. -/
def decode? (cs : List Char) : Option (List Char) :=
  let digits := (cs.reverse.takeWhile (· != '-')).reverse
  let basic := cs.take (cs.length - digits.length - 1)
  if basic.all (·.toNat < 128) then
    place? (digits.length + 1) 128 0 72 true basic digits
  else none

end ComicCatalog.Bootstring
