import EventWorker.Bus.Output
import EventWorker.Proofs.Bytes.Utf8
import EventWorker.Proofs.Text.Pieces

/-!
# Reading printed lines back

A line output prints the destination of a message, a space, the payload and a line feed. A reader
of the bytes cuts them at the line feeds and each line at its first space. It finds the messages
again when no destination has a space or a line feed in it and no payload a line feed.

Results:
1. `Outbound.ofLine?_line`: a line is read as the message it was printed for.
2. `Outbound.ofLines?_lines`: the lines of a sequence of messages are read as that sequence.
-/

namespace EventWorker

/-- The bytes of printed characters. -/
def LineOutput.bytes (text : List Char) : Bytes :=
  Bytes.ofText (String.ofList text)

/-- The byte that ends a line. -/
def lineFeed : UInt8 := 10

/-- The byte between a destination and its payload. -/
def space : UInt8 := 32

/-- A text that can be told from what follows it: it has no space and no line feed in it. -/
structure Unbroken (s : String) : Prop where
  space : ' ' ∉ s.toList
  lineFeed : '\n' ∉ s.toList

instance (s : String) : Decidable (Unbroken s) :=
  decidable_of_iff (' ' ∉ s.toList ∧ '\n' ∉ s.toList)
    ⟨fun h => ⟨h.1, h.2⟩, fun h => ⟨h.space, h.lineFeed⟩⟩

namespace Outbound

/-- The message on a line: its destination stands before the first space, its payload behind. -/
def ofLine? (line : Bytes) : Option Outbound :=
  match line.dropWhile (· ≠ space) with
  | [] => none
  | _ :: payload => do
    let destination ← Bytes.text? (line.takeWhile (· ≠ space))
    let payload ← Bytes.text? payload
    return { destination, payload }

/-- The messages on the lines of a byte string that ends with a line feed or is empty. -/
def ofLines? (bytes : Bytes) : Option (List Outbound) :=
  let lines := bytes.splitOn lineFeed
  if lines.getLast? = some [] then lines.dropLast.mapM ofLine? else none

/-- A message whose line can be read back. -/
structure Legible (m : Outbound) : Prop where
  destination : Unbroken m.destination
  payload : '\n' ∉ m.payload.toList

/-- The bytes of the line of a message, without the line feed. -/
def lineBytes (m : Outbound) : Bytes :=
  Bytes.ofText m.destination ++ space :: Bytes.ofText m.payload

variable {m : Outbound} {ms : List Outbound}

theorem bytes_line (m : Outbound) :
    LineOutput.bytes (LineOutput.line m) = m.lineBytes ++ [lineFeed] := by
  have marks : String.utf8EncodeChar ' ' = [space] ∧ String.utf8EncodeChar '\n' = [lineFeed] := by
    decide
  rw [LineOutput.bytes, LineOutput.line, Bytes.ofText_ofList, List.flatMap_append,
    List.flatMap_append, List.flatMap_cons, List.flatMap_singleton, marks.1, marks.2,
    ← Bytes.ofText_eq, ← Bytes.ofText_eq]
  rfl

theorem bytes_lines (ms : List Outbound) :
    LineOutput.bytes (ms.flatMap LineOutput.line) =
      ms.flatMap fun m => m.lineBytes ++ [lineFeed] := by
  have each (m : Outbound) : (LineOutput.line m).flatMap String.utf8EncodeChar =
      m.lineBytes ++ [lineFeed] :=
    (Bytes.ofText_ofList _).symm.trans (bytes_line m)
  rw [LineOutput.bytes, Bytes.ofText_ofList, List.flatMap_assoc]
  exact congrArg ms.flatMap (funext each)

/-- A line is read as the message it was printed for. -/
theorem ofLine?_line (h : m.Legible) : ofLine? m.lineBytes = some m := by
  have before : ∀ b ∈ Bytes.ofText m.destination, decide (b ≠ space) = true := by
    intro b hb
    refine decide_eq_true ?_
    rintro rfl
    exact Bytes.notMem_ofText (c := ' ') (by decide) h.destination.space hb
  have rest : m.lineBytes.dropWhile (· ≠ space) = space :: Bytes.ofText m.payload := by
    rw [lineBytes, List.dropWhile_append_of_pos before, List.dropWhile_cons_of_neg (by decide)]
  have start : m.lineBytes.takeWhile (· ≠ space) = Bytes.ofText m.destination := by
    rw [lineBytes, List.takeWhile_append_of_pos before, List.takeWhile_cons_of_neg (by decide),
      List.append_nil]
  rw [ofLine?, rest, start]
  dsimp only
  rw [Bytes.text?_ofText, Bytes.text?_ofText]
  rfl

theorem lineFeed_notMem_lineBytes (h : m.Legible) : lineFeed ∉ m.lineBytes := by
  rw [lineBytes, List.mem_append, List.mem_cons, not_or, not_or]
  exact ⟨Bytes.notMem_ofText (c := '\n') (by decide) h.destination.lineFeed, by decide,
    Bytes.notMem_ofText (c := '\n') (by decide) h.payload⟩

theorem splitOn_lines (h : ∀ m ∈ ms, m.Legible) :
    (ms.flatMap fun m => m.lineBytes ++ [lineFeed]).splitOn lineFeed =
      ms.map lineBytes ++ [[]] := by
  induction ms with
  | nil => rfl
  | cons m rest ih =>
    obtain ⟨first, others⟩ := List.forall_mem_cons.mp h
    have alone : m.lineBytes.splitOn lineFeed = [m.lineBytes] :=
      List.splitOn_eq_singleton (lineFeed_notMem_lineBytes first)
    have cut (xs ys : Bytes) : (xs ++ lineFeed :: ys).splitOn lineFeed =
        xs.splitOn lineFeed ++ ys.splitOn lineFeed :=
      List.splitOnP_append_cons xs ys (beq_self_eq_true lineFeed)
    rw [List.flatMap_cons, List.append_assoc, List.singleton_append, cut, alone, ih others]
    rfl

/-- The lines of a sequence of messages are read as that sequence. -/
theorem ofLines?_lines (h : ∀ m ∈ ms, m.Legible) :
    ofLines? (LineOutput.bytes (ms.flatMap LineOutput.line)) = some ms := by
  rw [ofLines?, bytes_lines, splitOn_lines h, if_pos List.getLast?_concat, List.dropLast_concat,
    List.mapM_map]
  induction ms with
  | nil => rfl
  | cons m rest ih =>
    obtain ⟨first, others⟩ := List.forall_mem_cons.mp h
    rw [List.mapM_cons, Function.comp_apply, ofLine?_line first, ih others]
    rfl

/-- A destination with a space in it is read as a shorter one. -/
example : ofLines? (LineOutput.bytes (LineOutput.line ⟨"a b", "c"⟩)) = some [⟨"a", "b c"⟩] := by
  decide +kernel

end Outbound

end EventWorker
