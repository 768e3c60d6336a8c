import FlowGraph.Proofs.Json.Tokens

/-! # Printed values are read back

    The indented text of a value is read as the value (`Json.ofText_pretty`), if integers have
    64 bits, containers are nested no deeper than the reader follows, and each float is read
    back from its own text (`Json.Legible`).  The last is a condition: a float is written with
    as few digits as tell it from its neighbours, but it is read by scaling a rounded
    significand, which may miss it by a unit in the last place. -/

namespace FlowGraph

/-! ## Section 1: Numbers that are read back -/

namespace Decimal

theorem digitsOf_not_blank (n : Nat) : ∀ c ∈ digitsOf n, Source.isBlank c = false := by
  intro c hc
  have hdigit : c.isDigit = true := Nat.isDigit_of_mem_toDigits (by decide) (by decide) hc
  exact Source.isBlank_of_isDigit c hdigit

theorem ofInt_not_blank (n : Int) : ∀ c ∈ ofInt n, Source.isBlank c = false := by
  unfold ofInt
  split
  · exact List.forall_mem_cons.mpr ⟨rfl, digitsOf_not_blank _⟩
  · exact digitsOf_not_blank _

theorem write_not_blank (layout : Layout)
    (hmark : ∀ c ∈ layout.positiveMark, Source.isBlank c = false) (d : Decimal) :
    ∀ c ∈ layout.write d, Source.isBlank c = false := by
  have hdigits := digitsOf_not_blank d.digits
  have hzeros : ∀ n, ∀ c ∈ List.replicate n '0', Source.isBlank c = false := by
    intro n c hc
    rw [List.eq_of_mem_replicate hc]
    rfl
  unfold Layout.write
  -- how many digits there are does not matter
  generalize digitsOf d.digits = ds at hdigits ⊢
  dsimp only
  have hpoint : ∀ c cs, (∀ b ∈ c :: cs, Source.isBlank b = false) →
      ∀ b ∈ c :: '.' :: cs, Source.isBlank b = false := by
    intro c cs hcs
    simp only [List.forall_mem_cons] at hcs ⊢
    exact ⟨hcs.1, rfl, hcs.2⟩
  split_ifs <;> simp only [List.forall_mem_append, List.forall_mem_cons]
  · exact ⟨⟨hdigits, hzeros _⟩, rfl, rfl, List.forall_mem_nil _⟩
  · exact ⟨fun c hc => hdigits c (List.mem_of_mem_take hc), rfl,
      fun c hc => hdigits c (List.mem_of_mem_drop hc)⟩
  · exact ⟨⟨rfl, rfl, hzeros _⟩, hdigits⟩
  · refine ⟨?_, rfl, ofInt_not_blank _⟩
    split
    exacts [List.forall_mem_nil _, hdigits, hpoint _ _ hdigits]
  · refine ⟨?_, rfl, hmark, ofInt_not_blank _⟩
    split
    exacts [List.forall_mem_nil _, hdigits, hpoint _ _ hdigits]

end Decimal

namespace Json

theorem floatText_not_blank (x : Float) : ∀ c ∈ floatText x, Source.isBlank c = false := by
  have hwrite : ∀ c ∈ floatLayout.write (Decimal.shortest x), Source.isBlank c = false :=
    Decimal.write_not_blank _ (by simp [floatLayout, Source.isBlank]) _
  unfold floatText Decimal.Layout.writeFloat
  split
  · dsimp only
    split
    · exact List.forall_mem_cons.mpr ⟨rfl, hwrite⟩
    · exact hwrite
  · simp [Source.isBlank]

mutual

/-- The numbers in a value. -/
def numbers : Json → List Json
  | .int n => [.int n]
  | .float x => [.float x]
  | .arr items => numbersOfItems items
  | .obj fields => numbersOfFields fields
  | .null => []
  | .bool _ => []
  | .str _ => []

/-- The numbers in each item. -/
def numbersOfItems : List Json → List Json
  | [] => []
  | j :: rest => j.numbers ++ numbersOfItems rest

/-- The numbers in each field. -/
def numbersOfFields : List (String × Json) → List Json
  | [] => []
  | (_, j) :: rest => j.numbers ++ numbersOfFields rest

end

/-- A number that is read back: an integer of 64 bits, signed or unsigned, or a float whose
    text is read as the float, which therefore is finite. -/
def Legible : Json → Prop
  | .int n => -2 ^ 63 ≤ n ∧ n < 2 ^ 64
  | .float x => parse (String.ofList (floatText x)) = .ok (.float x)
  | _ => True

instance (j : Json) : Decidable j.Legible :=
  match j with
  | .int n => inferInstanceAs (Decidable (-2 ^ 63 ≤ n ∧ n < 2 ^ 64))
  | .float x => inferInstanceAs (Decidable (parse (String.ofList (floatText x)) = .ok (.float x)))
  | .null => .isTrue trivial
  | .bool _ => .isTrue trivial
  | .str _ => .isTrue trivial
  | .arr _ => .isTrue trivial
  | .obj _ => .isTrue trivial

/-- A value begins with what is no blank and closes no array. -/
theorem prettyChars_head (level : Nat) (j : Json) (hj : ∀ n ∈ j.numbers, n.Legible) :
    ∃ c cs, prettyChars level j = c :: cs ∧ Source.isBlank c = false ∧ c ≠ ']' := by
  cases j with
  | null => exact ⟨'n', _, rfl, rfl, by decide⟩
  | bool b => cases b with
    | true => exact ⟨'t', _, rfl, rfl, by decide⟩
    | false => exact ⟨'f', _, rfl, rfl, by decide⟩
  | str s => exact ⟨'"', _, rfl, rfl, by decide⟩
  | arr items => cases items with
    | nil => exact ⟨'[', _, rfl, rfl, by decide⟩
    | cons j rest => exact ⟨'[', _, rfl, rfl, by decide⟩
  | obj fields => cases fields with
    | nil => exact ⟨'{', _, rfl, rfl, by decide⟩
    | cons f rest => exact ⟨'{', _, rfl, rfl, by decide⟩
  | int n =>
    show ∃ c cs, Decimal.ofInt n = c :: cs ∧ _
    unfold Decimal.ofInt Decimal.digitsOf
    split
    · exact ⟨'-', _, rfl, rfl, by decide⟩
    · cases hfirst : Nat.toDigits 10 n.natAbs with
      | nil => exact absurd hfirst Nat.toDigits_ne_nil
      | cons c cs =>
        have hc : c.isDigit = true := Nat.isDigit_of_mem_toDigits (by decide) (by decide)
          (hfirst ▸ List.mem_cons_self)
        refine ⟨c, cs, rfl, Source.isBlank_of_isDigit c hc, ?_⟩
        rintro rfl
        cases hc
  | float x =>
    have hread := Source.ofText_of_parse _ x (hj (.float x) (by simp [numbers]))
    have hblank := floatText_not_blank x
    show ∃ c cs, floatText x = c :: cs ∧ _
    have hfst := Source.root_ofText (floatText x)
    rw [hread] at hfst
    -- a text that is read as a float is not empty, and does not begin with a bracket
    cases hfirst : floatText x with
    | nil =>
      rw [hfirst] at hfst
      exact absurd hfst (by simp [Source.scanValue, Source.skipSpace])
    | cons c cs =>
      rw [hfirst] at hfst hblank
      have hc := hblank c List.mem_cons_self
      refine ⟨c, cs, rfl, hc, ?_⟩
      rintro rfl
      exact Source.scanValue_ne_float _ _ ']' cs x hc (by decide) (by decide) hfst.symm

end Json

/-! ## Section 2: Values -/

namespace Source

open Json (newline prettyChars prettyItems prettyFields quoted Legible)

theorem ends_newline (level : Nat) (rest : List Char) : Ends (newline level ++ rest) :=
  ends_cons '\n' _ (.inr rfl)

theorem ends_items (level : Nat) (items : List Json) (rest : List Char) :
    Ends (prettyItems level items ++ (newline level ++ rest)) := by
  cases items with
  | nil => exact ends_newline level rest
  | cons j items => exact ends_cons ',' _ (.inl rfl)

theorem ends_fields (level : Nat) (fields : List (String × Json)) (rest : List Char) :
    Ends (prettyFields level fields ++ (newline level ++ rest)) := by
  cases fields with
  | nil => exact ends_newline level rest
  | cons f fields => exact ends_cons ',' _ (.inl rfl)

theorem scanValue_space (fuel depth : Nat) (cs : List Char) :
    scanValue fuel depth (' ' :: cs) = scanValue fuel depth cs := by
  have hskip : skipSpace (' ' :: cs) = skipSpace cs := skipSpace_append [' '] cs (by simp [isBlank])
  cases fuel with
  | zero => simp only [scanValue]
  | succ fuel => simp only [scanValue, hskip]

section

variable (fuel depth level : Nat) (cs rest : List Char)

theorem scanValue_null : scanValue (fuel + 1) depth ('n' :: 'u' :: 'l' :: 'l' :: rest) =
    (.null, some rest) := by
  unfold scanValue
  rw [skipSpace_cons 'n' _ rfl]
  rfl

theorem scanValue_bool (b : Bool) :
    scanValue (fuel + 1) depth (prettyChars level (.bool b) ++ rest) = (.bool b, some rest) := by
  cases b with
  | true =>
    show scanValue (fuel + 1) depth ('t' :: 'r' :: 'u' :: 'e' :: rest) = _
    unfold scanValue
    rw [skipSpace_cons 't' _ rfl]
    rfl
  | false =>
    show scanValue (fuel + 1) depth ('f' :: 'a' :: 'l' :: 's' :: 'e' :: rest) = _
    unfold scanValue
    rw [skipSpace_cons 'f' _ rfl]
    rfl

theorem scanValue_quoted (s : String) :
    scanValue (fuel + 1) depth (quoted s ++ rest) = (.str s, some rest) := by
  have htext : quoted s ++ rest = '"' :: (s.toList.flatMap Json.escape ++ '"' :: rest) := by
    simp [quoted]
  rw [htext]
  unfold scanValue
  rw [skipSpace_cons '"' _ rfl]
  exact scanText_quoted s rest

theorem atDepth_eq (s : Source) (hdepth : depth ≤ maxDepth) : atDepth depth s = s :=
  if_neg (Nat.not_lt.mpr hdepth)

theorem scanValue_array (hdepth : depth ≤ maxDepth) (items : List Source)
    (hitems : scanItems fuel (depth + 1) true cs = (items, none, some rest)) :
    scanValue (fuel + 1) depth ('[' :: cs) = (.arr items none, some rest) := by
  unfold scanValue
  rw [skipSpace_cons '[' _ rfl]
  simp only [hitems, atDepth_eq depth _ hdepth]

theorem scanValue_object (hdepth : depth ≤ maxDepth) (fields : List (Option String × Source))
    (hfields : scanFields fuel (depth + 1) true cs = (fields, none, some rest)) :
    scanValue (fuel + 1) depth ('{' :: cs) = (.obj fields none, some rest) := by
  unfold scanValue
  rw [skipSpace_cons '{' _ rfl]
  simp only [hfields, atDepth_eq depth _ hdepth]

theorem scanItems_empty : scanItems (fuel + 1) depth true (']' :: rest) = ([], none, some rest) := by
  unfold scanItems
  rw [skipSpace_cons ']' rest rfl]
  rfl

theorem scanItems_close (first : Bool) :
    scanItems (fuel + 1) depth first (newline level ++ ']' :: rest) = ([], none, some rest) := by
  unfold scanItems
  rw [skipSpace_newline, skipSpace_cons ']' rest rfl]
  rfl

theorem scanItems_first (c : Char) (hblank : isBlank c = false) (hc : c ≠ ']') :
    scanItems (fuel + 1) depth true (newline level ++ c :: cs) = scanItem fuel depth (c :: cs) := by
  unfold scanItems
  rw [skipSpace_newline, skipSpace_cons c cs hblank]
  split <;> simp_all

theorem scanItems_comma (c : Char) (hblank : isBlank c = false) (hc : c ≠ ']') :
    scanItems (fuel + 1) depth false (',' :: (newline level ++ c :: cs)) =
      scanItem fuel depth (c :: cs) := by
  have hskip : skipSpace (newline level ++ c :: cs) = c :: cs := by
    rw [skipSpace_newline, skipSpace_cons c cs hblank]
  unfold scanItems
  rw [skipSpace_cons ',' _ rfl]
  split
  case h_1 heq => cases heq
  case h_2 heq => simp at heq
  case h_3 heq =>
    obtain ⟨rfl, rfl⟩ := List.cons.inj heq
    rw [if_neg Bool.false_ne_true, if_pos rfl, hskip]
    split
    case h_1 hclose => exact absurd (List.cons.inj hclose).1 hc
    case h_2 => rfl

theorem scanItem_eq (s : Source) (items : List Source)
    (hvalue : scanValue fuel depth cs = (s, some rest)) (after : List Char)
    (hitems : scanItems fuel depth false rest = (items, none, some after)) :
    scanItem (fuel + 1) depth cs = (s :: items, none, some after) := by
  unfold scanItem
  rw [hvalue]
  dsimp only
  rw [hitems]

theorem scanFields_empty :
    scanFields (fuel + 1) depth true ('}' :: rest) = ([], none, some rest) := by
  unfold scanFields
  rw [skipSpace_cons '}' rest rfl]
  rfl

theorem scanFields_close (first : Bool) :
    scanFields (fuel + 1) depth first (newline level ++ '}' :: rest) = ([], none, some rest) := by
  unfold scanFields
  rw [skipSpace_newline, skipSpace_cons '}' rest rfl]
  rfl

theorem scanFields_first :
    scanFields (fuel + 1) depth true (newline level ++ '"' :: cs) =
      scanField fuel depth ('"' :: cs) := by
  unfold scanFields
  rw [skipSpace_newline, skipSpace_cons '"' cs rfl]
  rfl

theorem scanFields_comma :
    scanFields (fuel + 1) depth false (',' :: (newline level ++ '"' :: cs)) =
      scanField fuel depth ('"' :: cs) := by
  have hcomma : ∀ ds, scanFields (fuel + 1) depth false (',' :: ds) =
      scanField fuel depth (skipSpace ds) := by
    intro ds
    unfold scanFields
    rw [skipSpace_cons ',' ds rfl]
    rfl
  rw [hcomma, skipSpace_newline, skipSpace_cons '"' cs rfl]

theorem scanField_eq (name : String) (s : Source) (fields : List (Option String × Source))
    (hvalue : scanValue fuel depth cs = (s, some rest)) (after : List Char)
    (hfields : scanFields fuel depth false rest = (fields, none, some after)) :
    scanField (fuel + 1) depth (quoted name ++ ':' :: ' ' :: cs) =
      ((some name, s) :: fields, none, some after) := by
  have hname : quoted name ++ ':' :: ' ' :: cs =
      '"' :: (name.toList.flatMap Json.escape ++ '"' :: ':' :: ' ' :: cs) := by
    simp [quoted]
  rw [hname]
  simp only [scanField, scanString_quoted, skipSpace_cons ':' _ rfl, scanValue_space, hvalue, hfields]
  simp [named, Contents.text]

end

theorem length_newline (level : Nat) : 0 < (newline level).length := by
  simp [newline]

mutual

/-- A value is read back where its text ends, with three steps for each character. -/
theorem scanValue_pretty (j : Json) (hj : ∀ n ∈ j.numbers, n.Legible) (level depth fuel : Nat)
    (rest : List Char) (hrest : Ends rest) (hdepth : (ofJson j).depth + depth ≤ maxDepth + 1)
    (hfuel : 3 * (prettyChars level j).length ≤ fuel) :
    scanValue fuel depth (prettyChars level j ++ rest) = (ofJson j, some rest) := by
  -- there is a character, so there are steps for the value, its first item, and that one's value
  obtain ⟨c, cs, hhead, _, _⟩ := Json.prettyChars_head level j hj
  obtain ⟨fuel, rfl⟩ : ∃ f, fuel = f + 3 := by
    rw [hhead, List.length_cons] at hfuel
    exact ⟨fuel - 3, by omega⟩
  match j with
  | .null => exact scanValue_null _ depth rest
  | .bool b => exact scanValue_bool _ depth level rest b
  | .int n =>
    obtain ⟨hlow, hhigh⟩ := hj (.int n) (by simp [Json.numbers])
    exact scanValue_ofInt _ depth n rest hrest hlow hhigh
  | .float x =>
    exact scanValue_float _ depth x _ rest hrest (Json.floatText_not_blank x)
      (hj (.float x) (by simp [Json.numbers]))
  | .str s => exact scanValue_quoted _ depth rest s
  | .arr [] =>
    rw [ofJson, ofItems, Source.depth, depthItems] at hdepth
    exact scanValue_array _ depth _ rest (by omega) [] (scanItems_empty _ _ rest)
  | .arr (j :: items) =>
    rw [ofJson, ofItems, Source.depth, depthItems] at hdepth
    have htext : prettyChars level (.arr (j :: items)) ++ rest =
        '[' :: (newline (level + 1) ++ (prettyChars (level + 1) j ++
          (prettyItems level items ++ (newline level ++ ']' :: rest)))) := by
      simp [prettyChars]
    have hlength := length_newline (level + 1)
    simp only [prettyChars, List.length_append, List.length_cons] at hfuel
    obtain ⟨c, cs, hhead, hblank, hc⟩ := Json.prettyChars_head (level + 1) j
      fun n hn => hj n (List.mem_append_left _ hn)
    have hvalue := scanValue_pretty j (fun n hn => hj n (List.mem_append_left _ hn)) (level + 1)
      (depth + 1) fuel _ (ends_items level items (']' :: rest)) (by omega) (by omega)
    have hitems := scanItems_pretty items (fun n hn => hj n (List.mem_append_right _ hn)) level
      (depth + 1) fuel rest (by omega) (by omega)
    have hitem := scanItem_eq fuel (depth + 1) _ _ _ _ hvalue rest hitems
    rw [htext]
    refine scanValue_array _ depth _ rest (by omega) _ ?_
    -- the reader looks at the first character, to see whether the array ends there
    rw [hhead, List.cons_append] at hitem ⊢
    rw [scanItems_first _ _ _ _ c hblank hc]
    exact hitem
  | .obj [] =>
    rw [ofJson, ofFields, Source.depth, depthFields] at hdepth
    exact scanValue_object _ depth _ rest (by omega) [] (scanFields_empty _ _ rest)
  | .obj ((name, j) :: fields) =>
    rw [ofJson, ofFields, Source.depth, depthFields] at hdepth
    have htext : prettyChars level (.obj ((name, j) :: fields)) ++ rest =
        '{' :: (newline (level + 1) ++ (quoted name ++ ':' :: ' ' :: (prettyChars (level + 1) j ++
          (prettyFields level fields ++ (newline level ++ '}' :: rest))))) := by
      simp [prettyChars]
    have hlength := length_newline (level + 1)
    simp only [prettyChars, List.length_append, List.length_cons] at hfuel
    have hvalue := scanValue_pretty j (fun n hn => hj n (List.mem_append_left _ hn)) (level + 1)
      (depth + 1) fuel _ (ends_fields level fields ('}' :: rest)) (by omega) (by omega)
    have hfields := scanFields_pretty fields (fun n hn => hj n (List.mem_append_right _ hn)) level
      (depth + 1) fuel rest (by omega) (by omega)
    have hfield := scanField_eq fuel (depth + 1) _ _ name _ _ hvalue rest hfields
    rw [htext]
    refine scanValue_object _ depth _ rest (by omega) _ ?_
    rw [quoted, List.cons_append, List.cons_append] at hfield ⊢
    rw [scanFields_first]
    exact hfield

/-- The items after the first one are read back, up to the closing bracket. -/
theorem scanItems_pretty (items : List Json) (hitems : ∀ n ∈ Json.numbersOfItems items, n.Legible)
    (level depth fuel : Nat) (rest : List Char)
    (hdepth : depthItems (ofItems items) + depth ≤ maxDepth + 1)
    (hfuel : 3 * (prettyItems level items).length < fuel) :
    scanItems fuel depth false (prettyItems level items ++ (newline level ++ ']' :: rest)) =
      (ofItems items, none, some rest) := by
  match items with
  | [] =>
    obtain ⟨fuel, rfl⟩ : ∃ f, fuel = f + 1 := ⟨fuel - 1, by omega⟩
    exact scanItems_close fuel depth level rest false
  | j :: items =>
    rw [ofItems, depthItems] at hdepth
    -- two steps lead from a comma to the value behind it
    have htext : prettyItems level (j :: items) ++ (newline level ++ ']' :: rest) =
        ',' :: (newline (level + 1) ++ (prettyChars (level + 1) j ++
          (prettyItems level items ++ (newline level ++ ']' :: rest)))) := by
      simp [prettyItems]
    simp only [prettyItems, List.length_append, List.length_cons] at hfuel
    obtain ⟨fuel, rfl⟩ : ∃ f, fuel = f + 2 := ⟨fuel - 2, by omega⟩
    obtain ⟨c, cs, hhead, hblank, hc⟩ := Json.prettyChars_head (level + 1) j
      fun n hn => hitems n (List.mem_append_left _ hn)
    have hvalue := scanValue_pretty j (fun n hn => hitems n (List.mem_append_left _ hn)) (level + 1)
      depth fuel _ (ends_items level items (']' :: rest)) (by omega) (by omega)
    have hrest := scanItems_pretty items (fun n hn => hitems n (List.mem_append_right _ hn)) level
      depth fuel rest (by omega) (by omega)
    have hitem := scanItem_eq fuel depth _ _ _ _ hvalue rest hrest
    rw [htext]
    rw [hhead, List.cons_append] at hitem ⊢
    rw [scanItems_comma _ _ _ _ c hblank hc]
    exact hitem

/-- The fields after the first one are read back, up to the closing brace. -/
theorem scanFields_pretty (fields : List (String × Json))
    (hfields : ∀ n ∈ Json.numbersOfFields fields, n.Legible) (level depth fuel : Nat)
    (rest : List Char) (hdepth : depthFields (ofFields fields) + depth ≤ maxDepth + 1)
    (hfuel : 3 * (prettyFields level fields).length < fuel) :
    scanFields fuel depth false (prettyFields level fields ++ (newline level ++ '}' :: rest)) =
      (ofFields fields, none, some rest) := by
  match fields with
  | [] =>
    obtain ⟨fuel, rfl⟩ : ∃ f, fuel = f + 1 := ⟨fuel - 1, by omega⟩
    exact scanFields_close fuel depth level rest false
  | (name, j) :: fields =>
    rw [ofFields, depthFields] at hdepth
    have htext : prettyFields level ((name, j) :: fields) ++ (newline level ++ '}' :: rest) =
        ',' :: (newline (level + 1) ++ (quoted name ++ ':' :: ' ' :: (prettyChars (level + 1) j ++
          (prettyFields level fields ++ (newline level ++ '}' :: rest))))) := by
      simp [prettyFields]
    simp only [prettyFields, List.length_append, List.length_cons] at hfuel
    obtain ⟨fuel, rfl⟩ : ∃ f, fuel = f + 2 := ⟨fuel - 2, by omega⟩
    have hvalue := scanValue_pretty j (fun n hn => hfields n (List.mem_append_left _ hn)) (level + 1)
      depth fuel _ (ends_fields level fields ('}' :: rest)) (by omega) (by omega)
    have hrest := scanFields_pretty fields (fun n hn => hfields n (List.mem_append_right _ hn)) level
      depth fuel rest (by omega) (by omega)
    have hfield := scanField_eq fuel depth _ _ name _ _ hvalue rest hrest
    rw [htext]
    rw [quoted, List.cons_append, List.cons_append] at hfield ⊢
    rw [scanFields_comma]
    exact hfield

end

end Source

/-- **Main theorem: what is printed is read back.**  The indented text of a value is read as
    the value, to its end, if its numbers are read back and it is not nested too deep. -/
theorem Json.ofText_pretty (j : Json) (hj : ∀ n ∈ j.numbers, n.Legible)
    (hdepth : (Source.ofJson j).depth ≤ Source.maxDepth) :
    Document.ofText j.pretty = ⟨Source.ofJson j, false⟩ := by
  have hscan := Source.scanValue_pretty j hj 0 1 (3 * (prettyChars 0 j).length + 1) []
    (fun _ h => by cases h) (by omega) (by omega)
  rw [List.append_nil] at hscan
  unfold Document.ofText pretty
  rw [String.toList_ofList]
  dsimp only
  rw [hscan]
  rfl

end FlowGraph
