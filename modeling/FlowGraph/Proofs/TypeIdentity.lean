import FlowGraph.TypeIdentity
import Mathlib

/-! # Identities and their texts

    The text of an identity that was read is read as the same identity, with one exception: the
    text leaves an empty namespace out together with its dot, so that the class name comes first,
    and blanks at its start are cut (`TypeIdentity.parse_text_eq_outdented`).  The identity that is
    read from `. Branch` is written ` Branch` and read again as `Branch`.  After that nothing
    changes any more (`TypeIdentity.parse_text_parse`). -/

namespace FlowGraph

/-! ## Section 1: Texts without blank ends -/

namespace Text

/-- The characters do not start or end with a blank. -/
structure Trimmed (cs : List Char) : Prop where
  start : ∀ c ∈ cs.head?, isBlank c = false
  finish : ∀ c ∈ cs.getLast?, isBlank c = false

variable {cs : List Char}

theorem head?_trimStart (cs : List Char) : ∀ c ∈ (trimStart cs).head?, isBlank c = false := by
  intro c hc
  have hfirst := List.head?_dropWhile_not isBlank cs
  rw [Option.mem_def] at hc
  unfold trimStart at hc
  rw [hc] at hfirst
  exact hfirst

theorem trimStart_eq_self (h : ∀ c ∈ cs.head?, isBlank c = false) : trimStart cs = cs := by
  cases cs with
  | nil => rfl
  | cons c rest => exact List.dropWhile_cons_of_neg (by simp [h c rfl])

theorem trimEnd_eq_self (h : ∀ c ∈ cs.getLast?, isBlank c = false) : trimEnd cs = cs := by
  unfold trimEnd
  rw [trimStart_eq_self (by simpa using h), List.reverse_reverse]

theorem trimStart_suffix (cs : List Char) : trimStart cs <:+ cs := List.dropWhile_suffix isBlank

theorem trimEnd_isPrefix (cs : List Char) : trimEnd cs <+: cs := by
  have h := List.reverse_prefix.mpr (trimStart_suffix cs.reverse)
  rwa [List.reverse_reverse] at h

/-- Cutting the start keeps the last character, if it leaves any. -/
theorem mem_getLast?_of_trimStart {c : Char} (hc : c ∈ (trimStart cs).getLast?) :
    c ∈ cs.getLast? := by
  obtain ⟨blanks, hcs⟩ := trimStart_suffix cs
  rw [← hcs, List.getLast?_append]
  rw [Option.mem_def] at hc ⊢
  rw [hc, Option.some_or]

/-- Cutting the end keeps the first character, if it leaves any. -/
theorem mem_head?_of_trimEnd {c : Char} (hc : c ∈ (trimEnd cs).head?) : c ∈ cs.head? := by
  obtain ⟨blanks, hcs⟩ := trimEnd_isPrefix cs
  rw [← hcs, List.head?_append]
  rw [Option.mem_def] at hc ⊢
  rw [hc, Option.some_or]

theorem trimmed_trim (s : String) : Trimmed (trim s).toList := by
  unfold trim
  rw [String.toList_ofList]
  constructor
  · exact fun c hc => head?_trimStart s.toList c (mem_head?_of_trimEnd hc)
  · have h := head?_trimStart (trimStart s.toList).reverse
    unfold trimEnd
    simpa using h

theorem trim_eq_self {s : String} (h : Trimmed s.toList) : trim s = s := by
  unfold trim
  rw [trimStart_eq_self h.start, trimEnd_eq_self h.finish, String.ofList_toList]

theorem mem_of_mem_trim {s : String} {c : Char} (hc : c ∈ (trim s).toList) : c ∈ s.toList := by
  unfold trim at hc
  rw [String.toList_ofList] at hc
  exact (trimStart_suffix _).subset ((trimEnd_isPrefix _).subset hc)

end Text

/-! ## Section 2: Splitting -/

namespace TypeIdentity

open Text (Trimmed isBlank trim trimStart)

variable {mark : Char} {cs before after : List Char}

theorem splitFirst_eq_none_iff : splitFirst mark cs = none ↔ mark ∉ cs := by
  induction cs with
  | nil => simp [splitFirst]
  | cons c rest ih =>
    unfold splitFirst
    by_cases hc : c = mark
    · simp [hc]
    · simp [hc, ih, Ne.symm hc]

theorem splitFirst_eq_some_iff :
    splitFirst mark cs = some (before, after) ↔ cs = before ++ mark :: after ∧ mark ∉ before := by
  induction cs generalizing before with
  | nil => simp [splitFirst]
  | cons c rest ih =>
    unfold splitFirst
    by_cases hc : c = mark
    · -- the mark is found, so nothing is before it
      rw [if_pos hc]
      cases before with
      | nil => simp [hc, eq_comm]
      | cons b more => simp [hc]; grind
    · rw [if_neg hc, Option.map_eq_some_iff]
      cases before with
      | nil => simp [hc]
      | cons b more => simp [ih]; grind

theorem splitLast_eq_none_iff : splitLast mark cs = none ↔ mark ∉ cs := by
  unfold splitLast
  rw [Option.map_eq_none_iff, splitFirst_eq_none_iff, List.mem_reverse]

theorem splitLast_eq_some_iff :
    splitLast mark cs = some (before, after) ↔ cs = before ++ mark :: after ∧ mark ∉ after := by
  unfold splitLast
  simp only [Option.map_eq_some_iff, Prod.exists, splitFirst_eq_some_iff, Prod.mk.injEq]
  constructor
  · rintro ⟨a, b, ⟨hcs, hmark⟩, rfl, rfl⟩
    rw [List.reverse_eq_iff] at hcs
    exact ⟨by simpa using hcs, by simpa using hmark⟩
  · rintro ⟨rfl, hmark⟩
    exact ⟨after.reverse, before.reverse, ⟨by simp, by simpa using hmark⟩, by simp, by simp⟩

/-! ## Section 3: Reading what was written -/

/-- An assembly that is read: it is not empty and has no blank ends. -/
def Readable (assembly : Option String) : Prop :=
  ∀ a ∈ assembly, a ≠ "" ∧ Trimmed a.toList

/-- What is read comes from a type part without commas and blank ends. -/
theorem exists_ofTypePart (s : String) :
    ∃ part assembly, parse s = ofTypePart part assembly ∧ Trimmed part.toList ∧
      ',' ∉ part.toList ∧ Readable assembly := by
  unfold parse
  cases hsplit : splitFirst ',' s.toList with
  | none =>
    rw [splitFirst_eq_none_iff] at hsplit
    exact ⟨trim s, none, rfl, Text.trimmed_trim s, fun hc => hsplit (Text.mem_of_mem_trim hc),
      by simp [Readable]⟩
  | some parts =>
    obtain ⟨part, assembly⟩ := parts
    obtain ⟨_, hcomma⟩ := splitFirst_eq_some_iff.mp hsplit
    refine ⟨trim (String.ofList part), _, rfl, Text.trimmed_trim _, fun hc => ?_, ?_⟩
    · have hmem := Text.mem_of_mem_trim hc
      rw [String.toList_ofList] at hmem
      exact hcomma hmem
    · intro a ha
      split at ha
      · cases ha
      · rename_i hne
        obtain rfl := Option.mem_some.mp ha
        exact ⟨hne, Text.trimmed_trim _⟩

/-- A text is read in two parts, as it was written. -/
theorem parse_text {id : TypeIdentity} (hname : ',' ∉ id.fullName.toList)
    (hassembly : Readable id.assembly) : parse id.text = ofTypePart (trim id.fullName) id.assembly := by
  unfold parse text
  cases h : id.assembly with
  | none =>
    dsimp only
    rw [splitFirst_eq_none_iff.mpr hname]
  | some a =>
    obtain ⟨hne, htrimmed⟩ := hassembly a h
    have hsplit : splitFirst ',' (id.fullName ++ ", " ++ a).toList
        = some (id.fullName.toList, ' ' :: a.toList) :=
      splitFirst_eq_some_iff.mpr ⟨by simp [String.toList_append], hname⟩
    -- the blank after the comma is cut
    have hcut : trim (String.ofList (' ' :: a.toList)) = a := by
      have hblank : trimStart (' ' :: a.toList) = trimStart a.toList :=
        List.dropWhile_cons_of_pos (by decide)
      unfold trim
      rw [String.toList_ofList, hblank, Text.trimStart_eq_self htrimmed.start,
        Text.trimEnd_eq_self htrimmed.finish, String.ofList_toList]
    dsimp only
    rw [hsplit]
    dsimp only
    rw [hcut, if_neg hne, String.ofList_toList]

/-- A class name that is written first and starts with a blank. -/
def Indented (id : TypeIdentity) : Prop :=
  id.space = "" ∧ ∃ c ∈ id.className.toList.head?, isBlank c = true

/-- The identity with the blanks cut that come first in its text. -/
def outdented (id : TypeIdentity) : TypeIdentity :=
  if id.space = "" then
    { id with className := String.ofList (trimStart id.className.toList) }
  else id

theorem outdented_eq_self_iff (id : TypeIdentity) : id.outdented = id ↔ ¬ id.Indented := by
  obtain ⟨space, className, assembly⟩ := id
  unfold outdented Indented
  dsimp only
  by_cases hspace : space = ""
  · have hkept : String.ofList (trimStart className.toList) = className
        ↔ trimStart className.toList = className.toList := by
      rw [← String.toList_inj, String.toList_ofList]
    rw [if_pos hspace, mk.injEq]
    simp only [hspace, hkept, true_and, and_true]
    constructor
    · rintro hcut ⟨c, hc, hblank⟩
      rw [← hcut] at hc
      exact absurd hblank (by simp [Text.head?_trimStart _ c hc])
    · intro hsolid
      exact Text.trimStart_eq_self fun c hc => by
        by_contra hblank
        exact hsolid ⟨c, hc, by simpa using hblank⟩
  · simp [hspace]

theorem outdented_outdented (id : TypeIdentity) : id.outdented.outdented = id.outdented := by
  unfold outdented
  by_cases hspace : id.space = ""
  · simp [hspace, Text.trimStart_idem]
  · simp [hspace]

/-- The text of what was read, read once more. -/
theorem parse_text_eq_outdented (s : String) : parse (parse s).text = (parse s).outdented := by
  obtain ⟨part, assembly, hid, htrimmed, hcomma, hassembly⟩ := exists_ofTypePart s
  rw [hid]
  unfold ofTypePart
  cases hsplit : splitLast '.' part.toList with
  | none =>
    -- the type part is the class name
    have hname : fullName ⟨"", part, assembly⟩ = part := by simp [fullName]
    dsimp only
    rw [parse_text (by rwa [hname]) hassembly, hname, Text.trim_eq_self htrimmed]
    simp [ofTypePart, hsplit, outdented, Text.trimStart_eq_self htrimmed.start]
  | some parts =>
    obtain ⟨space, name⟩ := parts
    obtain ⟨hpart, hdot⟩ := splitLast_eq_some_iff.mp hsplit
    dsimp only
    cases space with
    | nil =>
      -- the dot of an empty namespace is left out
      have hname : fullName ⟨"", String.ofList name, assembly⟩ = String.ofList name := by
        simp [fullName]
      have hcut : trim (String.ofList name) = String.ofList (trimStart name) := by
        unfold trim
        rw [String.toList_ofList, Text.trimEnd_eq_self]
        intro c hc
        apply htrimmed.finish c
        have hlast := Text.mem_getLast?_of_trimStart hc
        rw [hpart]
        simp only [Option.mem_def] at hlast ⊢
        simp [List.getLast?_cons, hlast]
      have hnodot : splitLast '.' (trimStart name) = none :=
        splitLast_eq_none_iff.mpr fun hmem => hdot ((Text.trimStart_suffix name).subset hmem)
      have hnocomma : ',' ∉ (String.ofList name).toList := by
        rw [hpart] at hcomma
        simpa using hcomma
      rw [String.ofList_nil, parse_text (by rwa [hname]) hassembly, hname, hcut]
      simp [ofTypePart, hnodot, outdented]
    | cons c more =>
      have hspace : String.ofList (c :: more) ≠ "" := by simp
      have hname : fullName ⟨String.ofList (c :: more), String.ofList name, assembly⟩ = part := by
        rw [← String.toList_inj]
        simp [fullName, hpart]
      rw [parse_text (by rwa [hname]) hassembly, hname, Text.trim_eq_self htrimmed]
      simp [ofTypePart, hsplit, outdented]

/-- **Main theorem: identities and their texts.**  The text of an identity that was read is read
    as the same identity, except if its class name comes first and starts with a blank; then the
    blanks at its start are lost.  The identity that is read from its text is read from its own
    text again. -/
theorem parse_text_parse (s : String) :
    (parse (parse s).text = parse s ↔ ¬ (parse s).Indented) ∧
      parse (parse s).text = (parse s).outdented ∧
      parse (parse (parse s).text).text = parse (parse s).text := by
  have houtdented := parse_text_eq_outdented s
  refine ⟨?_, houtdented, ?_⟩
  · rw [houtdented, outdented_eq_self_iff]
  · rw [parse_text_eq_outdented (parse s).text, houtdented, outdented_outdented]

/-- A blank after a leading dot becomes the first character of the text, and is cut. -/
theorem parse_text_indented :
    parse ". Branch" = ⟨"", " Branch", none⟩ ∧ (parse ". Branch").text = " Branch" ∧
      parse (parse ". Branch").text = ⟨"", "Branch", none⟩ ∧
      (parse (parse ". Branch").text).agrees (parse ". Branch") = false := by
  decide +kernel

end TypeIdentity
end FlowGraph
