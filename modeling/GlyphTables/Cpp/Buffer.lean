import GlyphTables.Cpp.Sink

/-!
# Writing a draft through a buffer

Bytes on their way to a file are collected and handed over in larger pieces. So a file that takes no
more is noticed late, at the latest when the last piece is handed over.

* `handOver_of_takes`, `handOver_of_not_takes` : what comes of handing bytes over.
-/

namespace GlyphTables.Cpp

/-- No more bytes than this are collected. -/
def bufferSize : Nat := 8192

/-- What is handed over of a draft, whoever takes it. -/
structure Handover where
  /-- The pieces in their order; each has to be taken for the writing to go on. -/
  pieces : List (List UInt8)
  /-- The bytes still collected at a line that cannot be written. They are handed over once more, but
  nobody asks whether they are taken. -/
  left? : Option (List UInt8)

/-- Puts pieces in front of those that are handed over. -/
def Handover.after (later : Handover) (first : List (List UInt8)) : Handover :=
  { later with pieces := first ++ later.pieces }

/-- How a draft is handed over of which `pending` is still collected. A line that would fill the
buffer by itself goes past it. -/
def handover (pending : List UInt8) : Draft → Handover
  | [] => ⟨[pending], none⟩
  | none :: _ => ⟨[], some pending⟩
  | some line :: rest =>
    let bytes := lineBytes line
    if bufferSize ≤ bytes.length then (handover [] rest).after [pending, bytes]
    else if bufferSize < pending.length + bytes.length then (handover bytes rest).after [pending]
    else handover (pending ++ bytes) rest

/-- Hands `bytes` over, and goes on with `next` if they are taken. -/
def handOver (takes : List UInt8 → Bool) (bytes : List UInt8) (next : Delivery) : Delivery :=
  if takes bytes then ⟨bytes ++ next.written, next.ending⟩ else ⟨[], .full⟩

theorem handOver_of_takes {takes : List UInt8 → Bool} {bytes : List UInt8}
    (h : takes bytes = true) (next : Delivery) :
    handOver takes bytes next = ⟨bytes ++ next.written, next.ending⟩ :=
  if_pos h

theorem handOver_of_not_takes {takes : List UInt8 → Bool} {bytes : List UInt8}
    (h : takes bytes = false) (next : Delivery) : handOver takes bytes next = ⟨[], .full⟩ :=
  if_neg (ne_true_of_eq_false h)

/-- What comes after all pieces have been taken. -/
def Handover.last (h : Handover) (takes : List UInt8 → Bool) : Delivery :=
  match h.left? with
  | none => ⟨[], .complete⟩
  | some left => ⟨if takes left then left else [], .refused⟩

/-- Writes a draft of which `pending` is still collected to a file that takes what `takes` admits. -/
def pour (takes : List UInt8 → Bool) (pending : List UInt8) (draft : Draft) : Delivery :=
  let given := handover pending draft
  given.pieces.foldr (handOver takes) (given.last takes)

end GlyphTables.Cpp
