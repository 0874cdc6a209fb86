import EventWorker.Event
import EventWorker.Proofs.Text.Digits

/-!
# Values on one line

The writer escapes the control characters of a string and writes none of its own. A written value
therefore has no line feed in it, whatever texts it holds.

Results:
1. `escape_solid`, `doubleText_solid`: the written forms of characters and of doubles.
2. `Value.chars_solid`: the written form of a value.
3. `lineFeed_notMem_render`: a written event is on one line.
-/

namespace EventWorker

namespace Json

/-- A text without control characters. -/
def Solid (cs : List Char) : Prop :=
  ∀ c ∈ cs, 0x20 ≤ c.toNat

instance (cs : List Char) : Decidable (Solid cs) :=
  List.decidableBAll (fun c : Char => 0x20 ≤ c.toNat) cs

namespace Solid

variable {c : Char} {xs ys : List Char}

theorem nil : Solid [] :=
  fun _ none => absurd none List.not_mem_nil

theorem cons (hc : 0x20 ≤ c.toNat) (h : Solid xs) : Solid (c :: xs) :=
  List.forall_mem_cons.mpr ⟨hc, h⟩

theorem append (hx : Solid xs) (hy : Solid ys) : Solid (xs ++ ys) :=
  List.forall_mem_append.mpr ⟨hx, hy⟩

theorem take (h : Solid xs) (n : Nat) : Solid (xs.take n) :=
  fun c hc => h c (List.mem_of_mem_take hc)

theorem drop (h : Solid xs) (n : Nat) : Solid (xs.drop n) :=
  fun c hc => h c (List.mem_of_mem_drop hc)

theorem replicate (hc : 0x20 ≤ c.toNat) (n : Nat) : Solid (List.replicate n c) := by
  intro d hd
  rw [List.eq_of_mem_replicate hd]
  exact hc

theorem lineFeed (h : Solid xs) : '\n' ∉ xs :=
  fun hc => absurd (h _ hc) (by decide)

end Solid

theorem solid_of_isDigit {c : Char} (digit : c.isDigit = true) : 0x20 ≤ c.toNat := by
  rw [Char.isDigit, Bool.and_eq_true, decide_eq_true_eq] at digit
  exact Nat.le_trans (by decide) digit.1

theorem solid_decimal (n : Nat) : Solid (Text.decimal n) :=
  fun _ hc => solid_of_isDigit (Text.isDigit_of_mem_decimal hc)

theorem solid_signedDecimal (n : Int) : Solid (Text.signedDecimal n) := by
  intro c hc
  rcases Text.mem_signedDecimal hc with rfl | digit
  · decide
  · exact solid_of_isDigit digit

theorem solid_hexDigit (n : Nat) : 0x20 ≤ (Text.hexDigit n).toNat := by
  have digits : ∀ k < 16, 0x20 ≤ (Text.hexDigit k).toNat := by decide
  have low : Text.hexDigit n = Text.hexDigit (n % 16) := by
    simp only [Text.hexDigit, Nat.mod_mod]
  rw [low]
  exact digits _ (Nat.mod_lt _ (by decide))

/-- A control character is written by what stands for it. -/
theorem escape_solid (c : Char) : Solid (escape c) := by
  unfold escape
  split
  iterate 7 decide
  · split
    · have mark : Solid ['\\', 'u', '0', '0'] := by decide
      exact mark.append (.cons (solid_hexDigit _) (.cons (solid_hexDigit _) .nil))
    · next printable => exact .cons (Nat.le_of_not_lt printable) .nil

theorem quoted_solid (s : String) : Solid (quoted s) := by
  have inside : Solid (s.toList.flatMap escape) := by
    intro c hc
    obtain ⟨d, -, hc⟩ := List.mem_flatMap.mp hc
    exact escape_solid d c hc
  exact .cons (by decide) (inside.append (by decide))

theorem layout_solid {digits : List Char} (h : Solid digits) (exponent : Int) :
    Solid (layout digits exponent) := by
  have zeros (n : Nat) : Solid (List.replicate n '0') := .replicate (by decide) n
  unfold layout
  dsimp only
  split
  · split
    · exact (h.append (zeros _)).append (by decide)
    · split
      · exact (h.take _).append (.cons (by decide) (h.drop _))
      · exact .cons (by decide) (.cons (by decide) ((zeros _).append h))
  · refine .append (.append (.append (h.take 1) ?_) ?_) (solid_decimal _)
    · split
      · exact .nil
      · exact .cons (by decide) (h.drop 1)
    · refine .cons (by decide) (.cons ?_ .nil)
      split <;> decide

theorem doubleText_solid (x : Double) : Solid (doubleText x) := by
  have body : Solid (if x.isZero then ['0', '.', '0']
      else layout (Text.decimal x.shortest.digits) x.shortest.exponent) := by
    split
    · decide
    · exact layout_solid (solid_decimal _) _
  unfold doubleText
  dsimp only
  split
  · exact .cons (by decide) body
  · exact body

theorem Number.chars_solid : (n : Number) → Solid n.chars
  | .int n => solid_signedDecimal n
  | .double x => doubleText_solid x

namespace Value

mutual

/-- No control character is written for a value. -/
theorem chars_solid : (v : Value) → Solid v.chars
  | .null => by decide
  | .bool true => by decide
  | .bool false => by decide
  | .num n => n.chars_solid
  | .str s => quoted_solid s
  | .arr items => .cons (by decide) ((itemChars_solid items).append (by decide))
  | .obj fields => .cons (by decide) ((fieldChars_solid fields).append (by decide))

theorem itemChars_solid : (items : List Value) → Solid (itemChars items)
  | [] => .nil
  | [v] => chars_solid v
  | v :: w :: rest => (chars_solid v).append (.cons (by decide) (itemChars_solid (w :: rest)))

theorem fieldChars_solid : (fields : List (String × Value)) → Solid (fieldChars fields)
  | [] => .nil
  | [(k, v)] => (quoted_solid k).append (.cons (by decide) (chars_solid v))
  | (k, v) :: x :: rest =>
    (quoted_solid k).append (.cons (by decide)
      ((chars_solid v).append (.cons (by decide) (fieldChars_solid (x :: rest)))))

end

end Value

end Json

/-- An event is written on one line, whatever the client has put into it. -/
theorem Event.lineFeed_notMem_render (e : Event) : '\n' ∉ e.render.toList := by
  rw [render, Json.Value.render, String.toList_ofList]
  exact e.toValue.chars_solid.lineFeed

end EventWorker
