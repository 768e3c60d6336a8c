import FlowGraph.Json.Parser
import FlowGraph.Json.Printer
import Mathlib

/-! # Tokens of printed values

    Integers, floats and strings are read back where their texts end.  In a printed value each
    of them is followed by a comma or a new line (`Source.Ends`), which no number and no
    word goes on with; so a number is read as it is read alone (`Source.Local`).

    Main statements: `scanValue_ofInt`, `scanValue_float`, `scanText_quoted`. -/

namespace FlowGraph

/-! ## Section 1: Ends of tokens -/

namespace Source

/-- The text is over, or goes on with a comma or a new line. -/
def Ends (rest : List Char) : Prop := ∀ c ∈ rest.head?, c = ',' ∨ c = '\n'

theorem ends_cons (c : Char) (rest : List Char) (hc : c = ',' ∨ c = '\n') : Ends (c :: rest) := by
  intro d hd
  rw [List.head?_cons, Option.mem_some_iff] at hd
  exact hd ▸ hc

/-- Spaces, tabs and line ends. -/
def isBlank (c : Char) : Bool := c = ' ' || c = '\t' || c = '\n' || c = '\r'

theorem skipSpace_cons (c : Char) (rest : List Char) (hc : isBlank c = false) :
    skipSpace (c :: rest) = c :: rest :=
  List.dropWhile_cons_of_neg (by simpa [isBlank] using hc)

theorem skipSpace_append (blank rest : List Char) (h : ∀ c ∈ blank, isBlank c = true) :
    skipSpace (blank ++ rest) = skipSpace rest := by
  unfold skipSpace
  exact List.dropWhile_append_of_pos h

theorem skipSpace_newline (level : Nat) (rest : List Char) :
    skipSpace (Json.newline level ++ rest) = skipSpace rest := by
  refine skipSpace_append _ rest fun c hc => ?_
  unfold Json.newline at hc
  rcases List.mem_cons.mp hc with rfl | hc
  · rfl
  · rw [List.eq_of_mem_replicate hc]
    rfl

/-! ## Section 2: Numbers -/

theorem spanDigits_append (cs rest : List Char) (hrest : Ends rest) :
    Decimal.spanDigits (cs ++ rest) =
      ((Decimal.spanDigits cs).1, (Decimal.spanDigits cs).2 ++ rest) := by
  unfold Decimal.spanDigits
  simp only [List.span_eq_takeWhile_dropWhile]
  induction cs with
  | nil =>
    cases rest with
    | nil => rfl
    | cons c rest =>
      have hc : c.isDigit = false := by
        rcases hrest c rfl with rfl | rfl <;> rfl
      simp [hc]
  | cons c cs ih =>
    rw [Prod.mk.injEq] at ih
    by_cases hc : c.isDigit = true
    · simp [hc, ih.1, ih.2]
    · simp [hc]

theorem spanDigits_digits (ds : List Char) (h : ∀ c ∈ ds, c.isDigit = true) :
    Decimal.spanDigits ds = (ds, []) := by
  unfold Decimal.spanDigits
  rw [List.span_eq_takeWhile_dropWhile, List.takeWhile_eq_self_iff.mpr h,
    List.dropWhile_eq_nil_iff.mpr h]

theorem mem_spanDigits (cs : List Char) (c : Char) (h : c ∈ (Decimal.spanDigits cs).2) : c ∈ cs := by
  unfold Decimal.spanDigits at h
  rw [List.span_eq_takeWhile_dropWhile] at h
  exact (List.dropWhile_sublist _).subset h

/-- A token that was read from a text is read so where the text goes on behind the token's
    end; what follows it is part of the text.  Nothing follows a broken one only. -/
structure Local (scan : List Char → Token) (cs : List Char) : Prop where
  broken : (scan cs).2 = none → ∃ b, (scan cs).1 = .broken b
  subset : ∀ v r, scan cs = (v, some r) → ∀ c ∈ r, c ∈ cs
  append : ∀ v r, scan cs = (v, some r) → ∀ rest, Ends rest →
    scan (cs ++ rest) = (v, some (r ++ rest))

theorem stopped_eq (cs : List Char) : ∃ b, stopped cs = (.broken b, none) := by
  unfold stopped
  split
  · exact ⟨_, rfl⟩
  · exact ⟨_, rfl⟩

/-- A text that stops short. -/
theorem local_of_broken {scan : List Char → Token} {cs : List Char}
    (h : ∃ b, scan cs = (.broken b, none)) : Local scan cs := by
  obtain ⟨b, hb⟩ := h
  refine ⟨fun _ => ⟨b, by rw [hb]⟩, fun v r hr => ?_, fun v r hr => ?_⟩
  · rw [hb] at hr
    cases hr
  · rw [hb] at hr
    cases hr

/-- A text that is read by another function, which is given part of the text. -/
theorem Local.of_eq {scan scan' : List Char → Token} {cs ds : List Char} (h : Local scan' ds)
    (heq : scan cs = scan' ds) (hsub : ∀ c ∈ ds, c ∈ cs)
    (happend : ∀ rest, Ends rest → scan (cs ++ rest) = scan' (ds ++ rest)) : Local scan cs := by
  refine ⟨fun hnone => ?_, fun v r hr c hc => ?_, fun v r hr rest hrest => ?_⟩
  · rw [heq] at hnone ⊢
    exact h.broken hnone
  · rw [heq] at hr
    exact hsub c (h.subset v r hr c hc)
  · rw [heq] at hr
    rw [happend rest hrest]
    exact h.append v r hr rest hrest

/-- A text that is read already. -/
theorem local_of_read {scan : List Char → Token} {cs : List Char} (v : Source)
    (h : ∀ rest, Ends rest → scan (cs ++ rest) = (v, some (cs ++ rest))) (hcs : scan cs = (v, some cs)) :
    Local scan cs := by
  refine ⟨fun hnone => ?_, fun w r hr c hc => ?_, fun w r hr rest hrest => ?_⟩
  · rw [hcs] at hnone
    cases hnone
  · rw [hcs] at hr
    cases hr
    exact hc
  · rw [hcs] at hr
    cases hr
    exact h rest hrest

/-- The sign of an exponent, and what follows it. -/
def exponentSign : List Char → Bool × List Char
  | '-' :: r => (true, r)
  | '+' :: r => (false, r)
  | r => (false, r)

theorem exponentSign_append (cs rest : List Char) (hrest : Ends rest) :
    exponentSign (cs ++ rest) = ((exponentSign cs).1, (exponentSign cs).2 ++ rest) := by
  cases cs with
  | nil =>
    cases rest with
    | nil => rfl
    | cons c rest => rcases hrest c rfl with rfl | rfl <;> rfl
  | cons c cs =>
    by_cases hminus : c = '-'
    · subst hminus
      rfl
    · by_cases hplus : c = '+'
      · subst hplus
        rfl
      · simp [exponentSign, hminus, hplus]

theorem mem_exponentSign (cs : List Char) (c : Char) (h : c ∈ (exponentSign cs).2) : c ∈ cs := by
  unfold exponentSign at h
  split at h
  · exact List.mem_cons_of_mem _ h
  · exact List.mem_cons_of_mem _ h
  · exact h

theorem scanExponent_local (finish : Option (Bool × List Char) → Source) (cs : List Char) :
    Local (scanExponent finish) cs := by
  have heq : ∀ cs, scanExponent finish cs =
      if (Decimal.spanDigits (exponentSign cs).2).1.isEmpty then
        stopped (Decimal.spanDigits (exponentSign cs).2).2
      else (finish (some ((exponentSign cs).1, (Decimal.spanDigits (exponentSign cs).2).1)),
        some (Decimal.spanDigits (exponentSign cs).2).2) := fun _ => rfl
  by_cases hempty : (Decimal.spanDigits (exponentSign cs).2).1.isEmpty = true
  · refine local_of_broken ?_
    rw [heq, if_pos hempty]
    exact stopped_eq _
  · have hread := heq cs
    rw [if_neg hempty] at hread
    refine ⟨fun hnone => ?_, fun v r hr c hc => ?_, fun v r hr rest hrest => ?_⟩
    · rw [hread] at hnone
      cases hnone
    · rw [hread] at hr
      cases hr
      exact mem_exponentSign cs c (mem_spanDigits _ c hc)
    · rw [hread] at hr
      cases hr
      rw [heq, exponentSign_append cs rest hrest, spanDigits_append _ rest hrest, if_neg hempty]

theorem scanAfterFraction_local (finish : Option (Bool × List Char) → Source) (cs : List Char) :
    Local (scanAfterFraction finish) cs := by
  cases cs with
  | nil =>
    refine local_of_read (finish none) (fun rest hrest => ?_) rfl
    cases rest with
    | nil => rfl
    | cons c rest => rcases hrest c rfl with rfl | rfl <;> rfl
  | cons c cs =>
    by_cases hlower : c = 'e'
    · subst hlower
      exact (scanExponent_local finish cs).of_eq rfl (fun c hc => List.mem_cons_of_mem _ hc)
        fun _ _ => rfl
    · by_cases hupper : c = 'E'
      · subst hupper
        exact (scanExponent_local finish cs).of_eq rfl (fun c hc => List.mem_cons_of_mem _ hc)
          fun _ _ => rfl
      · have hplain : ∀ ds, scanAfterFraction finish (c :: ds) = (finish none, some (c :: ds)) := by
          intro ds
          unfold scanAfterFraction
          split <;> simp_all
        exact local_of_read (finish none) (fun rest _ => hplain (cs ++ rest)) (hplain cs)

/-- What follows the whole digits of a number. -/
def scanFraction (negative : Bool) (whole : List Char) : List Char → Token
  | '.' :: rest =>
    let (fraction, rest) := Decimal.spanDigits rest
    if fraction.isEmpty then stopped rest
    else scanAfterFraction (numberValue negative whole (some fraction)) rest
  | rest => scanAfterFraction (numberValue negative whole none) rest

theorem scanFraction_local (negative : Bool) (whole cs : List Char) :
    Local (scanFraction negative whole) cs := by
  have hpoint : ∀ rest, scanFraction negative whole ('.' :: rest) =
      if (Decimal.spanDigits rest).1.isEmpty then stopped (Decimal.spanDigits rest).2
      else scanAfterFraction (numberValue negative whole (some (Decimal.spanDigits rest).1))
        (Decimal.spanDigits rest).2 := fun _ => rfl
  have hplain : ∀ rest, rest.head? ≠ some '.' → scanFraction negative whole rest =
      scanAfterFraction (numberValue negative whole none) rest := by
    intro rest hhead
    unfold scanFraction
    split
    · simp at hhead
    · rfl
  by_cases hhead : cs.head? = some '.'
  · obtain ⟨ds, rfl⟩ : ∃ ds, cs = '.' :: ds := by
      cases cs with
      | nil => cases hhead
      | cons c ds => exact ⟨ds, by simpa using hhead⟩
    by_cases hempty : (Decimal.spanDigits ds).1.isEmpty = true
    · refine local_of_broken ?_
      rw [hpoint, if_pos hempty]
      exact stopped_eq _
    · refine (scanAfterFraction_local (numberValue negative whole (some (Decimal.spanDigits ds).1))
        (Decimal.spanDigits ds).2).of_eq ?_ (fun c hc => ?_) fun rest hrest => ?_
      · rw [hpoint, if_neg hempty]
      · exact List.mem_cons_of_mem _ (mem_spanDigits ds c hc)
      · rw [List.cons_append, hpoint, spanDigits_append ds rest hrest, if_neg hempty]
  · refine (scanAfterFraction_local (numberValue negative whole none) cs).of_eq (hplain cs hhead)
      (fun _ hc => hc) fun rest hrest => hplain _ ?_
    rw [List.head?_append]
    cases hcs : cs.head? with
    | some c =>
      rw [hcs] at hhead
      exact hhead
    | none =>
      intro heq
      rcases hrest '.' heq with h | h <;> cases h

/-- Digits without a leading zero are followed by a fraction, an exponent or nothing. -/
theorem scanNumber_eq (negative : Bool) (cs : List Char) (hsome : (Decimal.spanDigits cs).1 ≠ [])
    (hzero : ∀ d ds, (Decimal.spanDigits cs).1 ≠ '0' :: d :: ds) : scanNumber negative cs =
      scanFraction negative (Decimal.spanDigits cs).1 (Decimal.spanDigits cs).2 := by
  unfold scanNumber
  generalize Decimal.spanDigits cs = p at *
  obtain ⟨whole, rest⟩ := p
  dsimp only at *
  split
  · exact absurd rfl hsome
  · exact absurd rfl (hzero _ _)
  · rfl

theorem scanNumber_broken (negative : Bool) (cs : List Char)
    (h : (Decimal.spanDigits cs).1 = [] ∨ ∃ d ds, (Decimal.spanDigits cs).1 = '0' :: d :: ds) :
    ∃ b, scanNumber negative cs = (.broken b, none) := by
  unfold scanNumber
  generalize Decimal.spanDigits cs = p at *
  obtain ⟨whole, rest⟩ := p
  rcases h with rfl | ⟨d, ds, rfl⟩
  · exact stopped_eq rest
  · exact ⟨_, rfl⟩

theorem scanNumber_local (negative : Bool) (cs : List Char) : Local (scanNumber negative) cs := by
  by_cases hwhole : (Decimal.spanDigits cs).1 = [] ∨
      ∃ d ds, (Decimal.spanDigits cs).1 = '0' :: d :: ds
  · exact local_of_broken (scanNumber_broken negative cs hwhole)
  · obtain ⟨hsome, hnot⟩ := not_or.mp hwhole
    have hzero : ∀ d ds, (Decimal.spanDigits cs).1 ≠ '0' :: d :: ds :=
      fun d ds heq => hnot ⟨d, ds, heq⟩
    refine (scanFraction_local negative (Decimal.spanDigits cs).1 (Decimal.spanDigits cs).2).of_eq
      (scanNumber_eq negative cs hsome hzero) (fun c hc => mem_spanDigits cs c hc)
      fun rest hrest => ?_
    have hspan := spanDigits_append cs rest hrest
    rw [scanNumber_eq negative (cs ++ rest) (by rwa [hspan]) (by rwa [hspan]), hspan]

/-! ### Integers -/

/-- No natural number is written with a leading zero, but for zero. -/
theorem toDigits_ne_zero_cons (n : Nat) (d : Char) (ds : List Char) :
    Nat.toDigits 10 n ≠ '0' :: d :: ds := by
  have hhead : ∀ n, 0 < n → (Nat.toDigits 10 n).head? ≠ some '0' := by
    intro n
    induction n using Nat.strong_induction_on with
    | _ n ih =>
      intro hn
      rw [Nat.toDigits_eq_if (by decide)]
      by_cases hlt : n < 10
      · rw [if_pos hlt]
        interval_cases n <;> decide
      · rw [if_neg hlt, List.head?_append]
        have hprefix := ih (n / 10) (by omega) (by omega)
        cases hfirst : (Nat.toDigits 10 (n / 10)).head? with
        | some c =>
          rw [hfirst] at hprefix
          exact hprefix
        | none => exact absurd (List.head?_eq_none_iff.mp hfirst) Nat.toDigits_ne_nil
  intro heq
  rcases Nat.eq_zero_or_pos n with rfl | hpos
  · cases heq
  · exact hhead n hpos (by rw [heq]; rfl)

theorem le_digitsValue (n : Nat) (ds : List Char) : n ≤ Decimal.digitsValue n ds := by
  induction ds generalizing n with
  | nil => exact le_refl n
  | cons d ds ih =>
    have hnext := ih (10 * n + (d.toNat - 48))
    unfold Decimal.digitsValue at hnext ⊢
    rw [List.foldl_cons]
    omega

/-- Digits are taken as long as their value fits. -/
theorem takeDigits_eq (n taken : Nat) (ds : List Char)
    (h : Decimal.digitsValue n ds ≤ maxUnsigned) :
    takeDigits n taken ds = (Decimal.digitsValue n ds, taken + ds.length, []) := by
  induction ds generalizing n taken with
  | nil => rfl
  | cons d ds ih =>
    have hcons : Decimal.digitsValue n (d :: ds) =
        Decimal.digitsValue (10 * n + (d.toNat - 48)) ds := rfl
    rw [hcons] at h ⊢
    have hnext := le_digitsValue (10 * n + (d.toNat - 48)) ds
    unfold takeDigits
    simp only [if_pos (hnext.trans h), ih _ _ h, List.length_cons, Nat.add_assoc, Nat.add_comm 1]

theorem scanNumber_digits (negative : Bool) (n : Nat) (hn : n ≤ maxUnsigned) :
    scanNumber negative (Nat.toDigits 10 n) = (integerValue negative n, some []) := by
  have hspan := spanDigits_digits (Nat.toDigits 10 n) fun c hc =>
    Nat.isDigit_of_mem_toDigits (by decide) (by decide) hc
  have hvalue : Decimal.digitsValue 0 (Nat.toDigits 10 n) = n := Nat.ofDigitChars_ten_toDigits
  have htake := takeDigits_eq 0 0 (Nat.toDigits 10 n) (by rw [hvalue]; exact hn)
  rw [hvalue] at htake
  rw [scanNumber_eq negative _ (by rw [hspan]; exact Nat.toDigits_ne_nil)
    (by rw [hspan]; exact toDigits_ne_zero_cons n), hspan]
  show (numberValue negative (Nat.toDigits 10 n) none none, some []) = _
  unfold numberValue
  rw [htake]
  rfl

/-! ### Number values -/

/-- A minus sign or a digit begins a number. -/
theorem scanValue_minus (fuel depth : Nat) (cs : List Char) :
    scanValue (fuel + 1) depth ('-' :: cs) = scanNumber true cs := by
  unfold scanValue
  rw [skipSpace_cons '-' cs rfl]
  rfl

theorem isBlank_of_isDigit (c : Char) (hc : c.isDigit = true) : isBlank c = false := by
  rw [Bool.eq_false_iff]
  intro hblank
  simp only [isBlank, Bool.or_eq_true, decide_eq_true_eq] at hblank
  rcases hblank with ((rfl | rfl) | rfl) | rfl <;> cases hc

theorem scanValue_digit (fuel depth : Nat) (c : Char) (cs : List Char) (hc : c.isDigit = true) :
    scanValue (fuel + 1) depth (c :: cs) = scanNumber false (c :: cs) := by
  unfold scanValue
  rw [skipSpace_cons c cs (isBlank_of_isDigit c hc)]
  split <;> simp_all

/-- An integer of 64 bits, signed or unsigned, is read back. -/
theorem scanValue_ofInt (fuel depth : Nat) (n : Int) (rest : List Char) (hrest : Ends rest)
    (hlow : -2 ^ 63 ≤ n) (hhigh : n < 2 ^ 64) :
    scanValue (fuel + 1) depth (Decimal.ofInt n ++ rest) = (.int n, some rest) := by
  have hmax : maxUnsigned = 2 ^ 64 - 1 := rfl
  have hdigits := fun negative => scanNumber_digits negative n.natAbs (by omega)
  unfold Decimal.ofInt Decimal.digitsOf
  by_cases hn : n < 0
  · have hvalue : integerValue true n.natAbs = .int n := by
      have htwo : twoTo 63 = 2 ^ 63 := rfl
      have hword : (n.natAbs = 0 || n.natAbs > twoTo 63) = false := by
        simp
        omega
      unfold integerValue
      rw [if_pos rfl, if_neg (by simpa using hword)]
      congr 1
      omega
    rw [if_pos hn, List.cons_append, scanValue_minus,
      (scanNumber_local true _).append _ _ (hdigits true) rest hrest, hvalue]
    rfl
  · have hvalue : integerValue false n.natAbs = .int n := by
      unfold integerValue
      rw [if_neg Bool.false_ne_true]
      congr 1
      omega
    have hscan := (scanNumber_local false _).append _ _ (hdigits false) rest hrest
    rw [if_neg hn]
    cases hfirst : Nat.toDigits 10 n.natAbs with
    | nil => exact absurd hfirst Nat.toDigits_ne_nil
    | cons c cs =>
      have hc : c.isDigit = true := Nat.isDigit_of_mem_toDigits (by decide) (by decide)
        (hfirst ▸ List.mem_cons_self)
      rw [hfirst, hvalue] at hscan
      rw [List.cons_append, scanValue_digit fuel depth c _ hc]
      exact hscan

theorem scanWord_fst (whole : Source) (word cs : List Char) :
    (scanWord whole word cs).1 = whole ∨ ∃ b, (scanWord whole word cs).1 = .broken b := by
  induction word generalizing cs with
  | nil => exact .inl rfl
  | cons w ws ih =>
    cases cs with
    | nil => exact .inr ⟨_, rfl⟩
    | cons c cs =>
      unfold scanWord
      split
      · exact ih cs
      · exact .inr ⟨_, rfl⟩

/-- Nothing but a number is read as a float. -/
theorem scanValue_ne_float (fuel depth : Nat) (c : Char) (cs : List Char) (x : Float)
    (hblank : isBlank c = false) (hminus : c ≠ '-') (hdigit : c.isDigit ≠ true) :
    (scanValue (fuel + 1) depth (c :: cs)).1 ≠ .float x := by
  have hword : ∀ (whole : Source) (word ds : List Char), whole ≠ .float x →
      (scanWord whole word ds).1 ≠ .float x := by
    intro whole word ds hwhole heq
    rcases scanWord_fst whole word ds with h | ⟨b, h⟩
    · exact hwhole (h.symm.trans heq)
    · cases h.symm.trans heq
  have hcontainer : ∀ s : Source, s ≠ .float x → atDepth depth s ≠ .float x := by
    intro s hs
    unfold atDepth
    split
    · simp
    · exact hs
  unfold scanValue
  rw [skipSpace_cons c cs hblank]
  split
  · simp
  · exact hword _ _ _ (by simp)
  · exact hword _ _ _ (by simp)
  · exact hword _ _ _ (by simp)
  · unfold scanText
    split
    · simp
    · split <;> simp
  · rename_i heq
    exact absurd (List.cons.inj heq).1 hminus
  · exact hcontainer _ (by simp)
  · exact hcontainer _ (by simp)
  · rename_i heq
    rw [← (List.cons.inj heq).1, if_neg hdigit]
    simp

/-- A number that is all of a text is read so where it ends. -/
theorem Local.scan_eq {scan : List Char → Token} {cs : List Char} (h : Local scan cs) (x : Float)
    (hblank : ∀ c ∈ cs, isBlank c = false) (hfst : (scan cs).1 = .float x)
    (hsnd : ∀ r, (scan cs).2 = some r → skipSpace r = []) (rest : List Char) (hrest : Ends rest) :
    scan (cs ++ rest) = (.float x, some rest) := by
  cases hscan : (scan cs).2 with
  | none =>
    obtain ⟨b, hb⟩ := h.broken hscan
    cases hfst.symm.trans hb
  | some r =>
    have heq : scan cs = (.float x, some r) := Prod.ext hfst hscan
    -- what is left has no blanks, and nothing else
    have hr : r = [] := by
      cases r with
      | nil => rfl
      | cons c r =>
        have hskip := hsnd _ hscan
        rw [skipSpace_cons c r (hblank c (h.subset _ _ heq c List.mem_cons_self))] at hskip
        cases hskip
    rw [hr] at heq
    exact h.append _ _ heq rest hrest

/-- Only a float is read as a float. -/
theorem eq_float_of_value (s : Source) (x : Float) (h : s.value = .ok (.float x)) : s = .float x := by
  unfold value at h
  cases hread : s.read with
  | error e =>
    rw [hread] at h
    cases h
  | ok j =>
    rw [hread] at h
    have hj : j.sorted = .float x := Except.ok.inj h
    cases s with
    | arr items ending =>
      rw [read] at hread
      cases hitems : readItems items <;> cases ending <;> simp_all [bind, Except.bind]
      subst hread
      cases hj
    | obj fields ending =>
      rw [read] at hread
      cases hfields : readFields fields <;> cases ending <;> simp_all [bind, Except.bind]
      subst hread
      cases hj
    | float y =>
      cases hread
      cases hj
      rfl
    | _ => cases hread <;> cases hj

/-- A text that is parsed as a float holds the float and no more. -/
theorem ofText_of_parse (text : String) (x : Float) (h : Json.parse text = .ok (.float x)) :
    Document.ofText text = ⟨.float x, false⟩ := by
  unfold Json.parse Document.decode at h
  generalize Document.ofText text = document at h ⊢
  obtain ⟨root, trailing⟩ := document
  cases hvalue : root.value with
  | error e =>
    rw [hvalue] at h
    cases h
  | ok j =>
    rw [hvalue] at h
    cases trailing with
    | true => cases h
    | false =>
      cases h
      rw [eq_float_of_value root x hvalue]

theorem root_ofText (cs : List Char) : (Document.ofText (String.ofList cs)).root =
    (scanValue (3 * cs.length + 1) 1 cs).1 := by
  unfold Document.ofText
  rw [String.toList_ofList]
  dsimp only
  split <;> simp_all

theorem trailing_ofText (cs r : List Char)
    (hr : (scanValue (3 * cs.length + 1) 1 cs).2 = some r) :
    (Document.ofText (String.ofList cs)).trailing = !(skipSpace r).isEmpty := by
  unfold Document.ofText
  rw [String.toList_ofList]
  dsimp only
  split <;> simp_all

/-- A text without blanks that is read as a float is read so where it ends. -/
theorem scanValue_float (fuel depth : Nat) (x : Float) (cs rest : List Char) (hrest : Ends rest)
    (hblank : ∀ c ∈ cs, isBlank c = false)
    (hparse : Json.parse (String.ofList cs) = .ok (.float x)) :
    scanValue (fuel + 1) depth (cs ++ rest) = (.float x, some rest) := by
  have hread := ofText_of_parse _ x hparse
  have hfst : (scanValue (3 * cs.length + 1) 1 cs).1 = .float x := by
    rw [← root_ofText, hread]
  have hsnd : ∀ r, (scanValue (3 * cs.length + 1) 1 cs).2 = some r → skipSpace r = [] := by
    intro r hr
    have htrailing := trailing_ofText cs r hr
    rw [hread] at htrailing
    simpa using htrailing
  cases cs with
  | nil => exact absurd hfst (by simp [scanValue, skipSpace])
  | cons c cs =>
    have htail : ∀ d ∈ cs, isBlank d = false := fun d hd => hblank d (List.mem_cons_of_mem c hd)
    by_cases hminus : c = '-'
    · subst hminus
      rw [scanValue_minus] at hfst hsnd
      rw [List.cons_append, scanValue_minus]
      exact (scanNumber_local true cs).scan_eq x htail hfst hsnd rest hrest
    · by_cases hdigit : c.isDigit = true
      · rw [scanValue_digit _ _ c cs hdigit] at hfst hsnd
        rw [List.cons_append, scanValue_digit _ _ c _ hdigit]
        exact (scanNumber_local false (c :: cs)).scan_eq x hblank hfst hsnd rest hrest
      · exact absurd hfst
          (scanValue_ne_float _ _ c cs x (hblank c List.mem_cons_self) hminus hdigit)

/-! ## Section 3: Strings -/

theorem hexValue_hexDigit (n : Nat) (hn : n < 16) : hexValue (Json.hexDigit n) = some n := by
  interval_cases n <;> decide

/-- A letter behind a backslash. -/
theorem scanString_letter (seen : List Char) (letter c : Char) (rest : List Char)
    (hu : letter ≠ 'u') (hletter : escaped letter = some c) :
    scanString (.ok seen) ('\\' :: letter :: rest) = scanString (.ok (c :: seen)) rest := by
  rw [scanString.eq_def]
  split <;> simp_all [Contents.add, Except.map]
  -- the last case is for texts without a backslash
  rename_i hnot heq
  exact absurd heq.2.symm (hnot letter rest heq.1.symm)

/-- A control character behind a backslash. -/
theorem scanString_control (seen : List Char) (n : Nat) (rest : List Char) (hn : n < 0x20) :
    scanString (.ok seen)
      ('\\' :: 'u' :: '0' :: '0' :: Json.hexDigit (n / 16) :: Json.hexDigit (n % 16) :: rest) =
      scanString (.ok (Char.ofNat n :: seen)) rest := by
  have hhigh := hexValue_hexDigit (n / 16) (by omega)
  have hlow := hexValue_hexDigit (n % 16) (by omega)
  have hvalue : hexValue4 '0' '0' (Json.hexDigit (n / 16)) (Json.hexDigit (n % 16)) = some n := by
    have hzero : hexValue '0' = some 0 := by decide
    simp only [hexValue4, hzero, hhigh, hlow, bind, Option.bind]
    congr 1
    omega
  rw [scanString.eq_def]
  simp only [hvalue]
  rw [if_neg (by simp; omega), if_neg (by simp; omega)]
  rfl

/-- Any other character. -/
theorem scanString_plain (seen : List Char) (c : Char) (rest : List Char) (hquote : c ≠ '"')
    (hslash : c ≠ '\\') (hplain : ¬ c.toNat < 0x20) :
    scanString (.ok seen) (c :: rest) = scanString (.ok (c :: seen)) rest := by
  rw [scanString.eq_def]
  split <;> simp_all [Contents.add, Except.map]

/-- A character is escaped by a letter or by its number, or stands for itself. -/
theorem escape_cases (c : Char) :
    (∃ letter, letter ≠ 'u' ∧ escaped letter = some c ∧ Json.escape c = ['\\', letter]) ∨
    (c.toNat < 0x20 ∧ Json.escape c =
      ['\\', 'u', '0', '0', Json.hexDigit (c.toNat / 16), Json.hexDigit (c.toNat % 16)]) ∨
    (c ≠ '"' ∧ c ≠ '\\' ∧ ¬ c.toNat < 0x20 ∧ Json.escape c = [c]) := by
  have hcode : ∀ d : Char, c.toNat = d.toNat → c = d := fun d h => Char.toNat_inj.mp h
  unfold Json.escape
  split_ifs with hquote hslash hb ht hn hf hr hcontrol
  · exact .inl ⟨'"', by decide, by rw [hquote]; rfl, rfl⟩
  · exact .inl ⟨'\\', by decide, by rw [hslash]; rfl, rfl⟩
  · exact .inl ⟨'b', by decide, hcode '\x08' hb ▸ rfl, rfl⟩
  · exact .inl ⟨'t', by decide, hcode '\t' ht ▸ rfl, rfl⟩
  · exact .inl ⟨'n', by decide, hcode '\n' hn ▸ rfl, rfl⟩
  · exact .inl ⟨'f', by decide, hcode '\x0c' hf ▸ rfl, rfl⟩
  · exact .inl ⟨'r', by decide, hcode '\r' hr ▸ rfl, rfl⟩
  · exact .inr (.inl ⟨hcontrol, rfl⟩)
  · exact .inr (.inr ⟨hquote, hslash, hcontrol, rfl⟩)

/-- A character is read back from its escape. -/
theorem scanString_escape (seen : List Char) (c : Char) (rest : List Char) :
    scanString (.ok seen) (Json.escape c ++ rest) = scanString (.ok (c :: seen)) rest := by
  rcases escape_cases c with ⟨letter, hu, hletter, hc⟩ | ⟨hcontrol, hc⟩ | ⟨hquote, hslash, hplain, hc⟩
  · rw [hc]
    exact scanString_letter seen letter c rest hu hletter
  · have hread := scanString_control seen c.toNat rest hcontrol
    rw [Char.ofNat_toNat] at hread
    rw [hc]
    exact hread
  · rw [hc]
    exact scanString_plain seen c rest hquote hslash hplain

theorem scanString_quoted (seen cs rest : List Char) :
    scanString (.ok seen) (cs.flatMap Json.escape ++ '"' :: rest) =
      .ok (.ok (cs.reverse ++ seen), rest) := by
  induction cs generalizing seen with
  | nil =>
    unfold scanString
    rfl
  | cons c cs ih =>
    rw [List.flatMap_cons, List.append_assoc, scanString_escape, ih]
    simp

theorem scanText_quoted (s : String) (rest : List Char) :
    scanText (s.toList.flatMap Json.escape ++ '"' :: rest) = (.str s, some rest) := by
  unfold scanText
  rw [scanString_quoted]
  simp [Contents.text]

end Source

end FlowGraph
