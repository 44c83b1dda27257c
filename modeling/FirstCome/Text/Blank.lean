/-!
White space, the cutting of text at it, and fields of a fixed width, counted in characters.
-/
namespace FirstCome.Text

/-- The Unicode property White_Space. -/
def isBlank (c : Char) : Bool :=
  let n := c.toNat
  decide (9 ≤ n ∧ n ≤ 13) || n == 0x20 || n == 0x85 || n == 0xA0 || n == 0x1680 ||
    decide (0x2000 ≤ n ∧ n ≤ 0x200A) || n == 0x2028 || n == 0x2029 || n == 0x202F ||
    n == 0x205F || n == 0x3000

def trimStart (cs : List Char) : List Char := cs.dropWhile isBlank

def trimEnd (cs : List Char) : List Char := (cs.reverse.dropWhile isBlank).reverse

def trim (cs : List Char) : List Char := trimEnd (trimStart cs)

def joinFirst (c : Char) : List (List Char) → List (List Char)
  | [] => [[c]]
  | w :: ws => (c :: w) :: ws

/-- The longest runs without white space, in order. -/
def words : List Char → List (List Char)
  | [] => []
  | c :: cs =>
    if isBlank c then words cs
    else match cs with
      | [] => [[c]]
      | d :: _ => if isBlank d then [c] :: words cs else joinFirst c (words cs)

/-- The lines of a text: each ends at a line feed, and a carriage return directly before that line
feed belongs to the end. The last line may lack its end; an empty one does not count. -/
def lines : List Char → List (List Char)
  | [] => []
  | '\n' :: cs => [] :: lines cs
  | '\r' :: '\n' :: cs => [] :: lines cs
  | c :: cs => joinFirst c (lines cs)

inductive Side where
  | left
  | right
  | centre
deriving DecidableEq

def cut (limit : Option Nat) (s : String) : String :=
  match limit with
  | none => s
  | some n => String.ofList (s.toList.take n)

/-- Fill a text up to `width`; a longer one stays whole. Centred, the odd place goes to the right. -/
def pad (side : Side) (fill : Char) (width : Nat) (s : String) : String :=
  let room := width - s.length
  let before := match side with
    | .left => 0
    | .right => room
    | .centre => room / 2
  String.ofList (List.replicate before fill) ++ s ++
    String.ofList (List.replicate (room - before) fill)

theorem toList_pad_left (fill : Char) (width : Nat) (s : String) :
    (pad .left fill width s).toList = s.toList ++ List.replicate (width - s.length) fill := by
  simp [pad]

end FirstCome.Text
