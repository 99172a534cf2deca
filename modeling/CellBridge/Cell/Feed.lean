import CellBridge.Cell.Value

/-!
# Hash feeds

`Value.feed` is the sequence of bytes that a value gives to a hash function.  Numbers give their
patterns, texts their UTF-8 bytes and a closing byte that occurs in no text, sequences their
length first.  The kind of a value is not part of the feed.
-/

namespace CellBridge

section Words

/-- The eight bytes of a 64-bit word, the lowest first. -/
def wordFeed
    (n : Nat) : List UInt8 :=
  (List.range 8).map fun i => UInt8.ofNat (n / Nat.pow 256 i)

/-- The bytes of a text and its closing byte. -/
def textFeed
    (s : String) : List UInt8 :=
  s.toUTF8.toList ++ [0xff]

end Words

/-- The feed of an error: the position of its code, and its explanation if it has one. -/
def CellError.feed
    (e : CellError) : List UInt8 :=
  wordFeed e.code.index ++
    (match e.message with
    | none => wordFeed 0
    | some m => wordFeed 1 ++ textFeed m)

namespace Value

mutual

def feed : Value → List UInt8
  | .number n => wordFeed n.bits.toNat
  | .text s => textFeed s
  | .boolean b => [if b then 1 else 0]
  | .array g => gridFeed g
  | .handle h => wordFeed h.value.toNat
  | .error e => e.feed
  | .empty => [0]
  | .missing => [1]

/-- The feed of a grid is that of its rows. -/
def gridFeed : Grid Value → List UInt8
  | ⟨rows, _, _⟩ => wordFeed rows.length ++ rowsFeed rows

/-- The feeds of rows in order, each with its length in front. -/
def rowsFeed : List (List Value) → List UInt8
  | [] => []
  | r :: rs => wordFeed r.length ++ cellsFeed r ++ rowsFeed rs

/-- The feeds of cells in order. -/
def cellsFeed : List Value → List UInt8
  | [] => []
  | v :: vs => v.feed ++ cellsFeed vs

end

end Value
end CellBridge
