import AsmScope.Settings.Variables
import Mathlib
/-! # Templates and what they expand to

A template is cut into parts in one way only (`piecesFrom_eq_iff`): from the left, a reference
wherever one begins (`Refers`), and a single character wherever none does. What is put in for a
reference does not change how the rest is cut, so the parts before and behind a reference expand as
templates of their own (`Splits.of_append`), and a value is never looked at. -/

namespace AsmScope.Variables

/-! ### References -/

/-- A text begins with a reference to a name: a dollar sign and an opening brace, and then the name
up to the nearest closing brace, on one line. -/
structure Refers (text name rest : List Char) : Prop where
  eq : text = '$' :: '\x7b' :: (name ++ '\x7d' :: rest)
  nearest : '\x7d' ∉ name
  oneLine : '\n' ∉ name

namespace Refers

variable {text name rest : List Char}

/-- What stands before the closing brace of a reference is its name. -/
theorem takeWhile_eq (h : Refers text name rest) :
    (text.drop 2).takeWhile (fun c => c ≠ '\x7d' && c ≠ '\n') = name := by
  have hname : ∀ c ∈ name, (decide (c ≠ '\x7d') && decide (c ≠ '\n')) = true := by
    intro c hc
    rw [Bool.and_eq_true, decide_eq_true_iff, decide_eq_true_iff]
    exact ⟨ne_of_mem_of_not_mem hc h.nearest, ne_of_mem_of_not_mem hc h.oneLine⟩
  have hstop : ('\x7d' :: rest).takeWhile (fun c => c ≠ '\x7d' && c ≠ '\n') = [] :=
    List.takeWhile_cons_of_neg (by decide)
  rw [h.eq, List.drop_succ_cons, List.drop_succ_cons, List.drop_zero,
    List.takeWhile_append_of_pos hname, hstop, List.append_nil]

/-- What follows a text changes nothing about the reference at its beginning. -/
theorem append (h : Refers text name rest) (back : List Char) :
    Refers (text ++ back) name (rest ++ back) :=
  ⟨by rw [h.eq]; simp, h.nearest, h.oneLine⟩

/-- A reference is read as its name. -/
theorem reference?_eq (h : Refers text name rest) : reference? text = some name := by
  have hname := h.takeWhile_eq
  rw [h.eq, List.drop_succ_cons, List.drop_succ_cons, List.drop_zero] at hname
  rw [h.eq, reference?, hname, List.drop_left]
  rfl

end Refers

/-- Only a reference is read as a name. -/
theorem exists_refers_of_reference? {text name : List Char} (h : reference? text = some name) :
    ∃ rest, Refers text name rest := by
  unfold reference? at h
  split at h
  · next chars =>
    dsimp only at h
    split at h
    · next hclosed =>
      -- the name is all up to the first brace or line feed, and what comes first is a brace
      obtain rfl := Option.some.inj h
      generalize hname : chars.takeWhile (fun c => c ≠ '\x7d' && c ≠ '\n') = name at hclosed ⊢
      have hmem : ∀ c ∈ name, c ≠ '\x7d' ∧ c ≠ '\n' := by
        intro c hc
        rw [← hname] at hc
        simpa using List.mem_takeWhile_imp hc
      obtain ⟨later, rfl⟩ : name <+: chars := hname ▸ List.takeWhile_prefix _
      rw [List.drop_left] at hclosed
      obtain ⟨rest, rfl⟩ := List.head?_eq_some_iff.1 hclosed
      exact ⟨rest, rfl, fun hc => (hmem _ hc).1 rfl, fun hc => (hmem _ hc).2 rfl⟩
    · cases h
  · cases h

/-! ### Parts of a template -/

/-- The parts of a text from left to right. -/
inductive Splits : List Char → List Piece → Prop
  | nil : Splits [] []
  | reference {text name rest : List Char} {parts : List Piece} (begins : Refers text name rest)
      (later : Splits rest parts) : Splits text (.reference name :: parts)
  | literal {c : Char} {rest : List Char} {parts : List Piece}
      (plain : ∀ name back, ¬Refers (c :: rest) name back) (later : Splits rest parts) :
      Splits (c :: rest) (.literal c :: parts)

/-- Leaving out characters is cutting the text without them. -/
theorem piecesFrom_drop (skip : Nat) (text : List Char) :
    piecesFrom skip text = piecesFrom 0 (text.drop skip) := by
  induction text generalizing skip with
  | nil => rw [List.drop_nil, piecesFrom, piecesFrom]
  | cons c text ih =>
    cases skip with
    | zero => rfl
    | succ skip => rw [piecesFrom, ih, List.drop_succ_cons]

/-- A reference is one part, and the parts of the rest follow it. -/
theorem piecesFrom_of_refers {text name rest : List Char} (h : Refers text name rest) :
    piecesFrom 0 text = .reference name :: piecesFrom 0 rest := by
  have hreference := h.reference?_eq
  rw [h.eq] at hreference ⊢
  have hrest : ('\x7b' :: (name ++ '\x7d' :: rest)).drop (name.length + 2) = rest := by
    rw [List.drop_succ_cons, ← List.drop_drop, List.drop_left, List.drop_succ_cons, List.drop_zero]
  rw [piecesFrom, hreference]
  dsimp only
  rw [piecesFrom_drop, hrest]

/-- Where no reference begins, a character is a part of its own. -/
theorem piecesFrom_of_plain {c : Char} {rest : List Char}
    (plain : ∀ name back, ¬Refers (c :: rest) name back) :
    piecesFrom 0 (c :: rest) = .literal c :: piecesFrom 0 rest := by
  have hnone : reference? (c :: rest) = none := by
    rw [Option.eq_none_iff_forall_not_mem]
    intro name hname
    obtain ⟨back, hback⟩ := exists_refers_of_reference? hname
    exact plain name back hback
  rw [piecesFrom, hnone]

/-- The pieces into which a text is cut are its parts. -/
theorem splits_piecesFrom (text : List Char) : Splits text (piecesFrom 0 text) := by
  induction hlength : text.length using Nat.strong_induction_on generalizing text with
  | _ length ih =>
    cases text with
    | nil => exact .nil
    | cons c later =>
      by_cases hrefers : ∃ name rest, Refers (c :: later) name rest
      · obtain ⟨name, rest, h⟩ := hrefers
        have hshorter : rest.length < length := by
          rw [← hlength, h.eq]
          simp only [List.length_cons, List.length_append]
          omega
        rw [piecesFrom_of_refers h]
        exact .reference h (ih _ hshorter rest rfl)
      · have hplain : ∀ name back, ¬Refers (c :: later) name back := by simpa using hrefers
        rw [piecesFrom_of_plain hplain]
        exact .literal hplain (ih _ (by simp [← hlength]) later rfl)

namespace Splits

variable {text : List Char} {parts : List Piece}

/-- A text has no other parts than the pieces into which it is cut. -/
theorem piecesFrom_eq (h : Splits text parts) : piecesFrom 0 text = parts := by
  induction h with
  | nil => rfl
  | reference begins later ih => rw [piecesFrom_of_refers begins, ih]
  | literal plain later ih => rw [piecesFrom_of_plain plain, ih]

/-- The parts one after the other are the text. -/
theorem flatMap_source (h : Splits text parts) : parts.flatMap Piece.source = text := by
  induction h with
  | nil => rfl
  | reference begins later ih => simp [Piece.source, ih, begins.eq]
  | literal plain later ih => simp [Piece.source, ih]

/-- Some of the parts are the parts of the text that they stand for: a reference that begins in it
is one of the whole text. -/
theorem of_append {front back : List Piece} (h : Splits text (front ++ back)) :
    Splits (front.flatMap Piece.source) front ∧ Splits (back.flatMap Piece.source) back := by
  induction front generalizing text with
  | nil =>
    rw [List.nil_append] at h
    exact ⟨.nil, h.flatMap_source ▸ h⟩
  | cons part front ih =>
    rw [List.cons_append] at h
    cases h with
    | reference begins later =>
      refine ⟨.reference ⟨?_, begins.nearest, begins.oneLine⟩ (ih later).1, (ih later).2⟩
      simp [Piece.source]
    | @literal c rest _ plain later =>
      have hrest := later.flatMap_source
      rw [List.flatMap_append] at hrest
      refine ⟨.literal (fun name after hafter => ?_) (ih later).1, (ih later).2⟩
      have hwhole := hafter.append (back.flatMap Piece.source)
      exact plain name _ (by rwa [← hrest])

end Splits

/-- **A text has its parts in one way only.** -/
theorem piecesFrom_eq_iff {text : List Char} {parts : List Piece} :
    piecesFrom 0 text = parts ↔ Splits text parts :=
  ⟨fun h => h ▸ splits_piecesFrom text, Splits.piecesFrom_eq⟩

/-! ### What stands for the parts -/

/-- What stands for a part: its value if it refers to a name that has one, and otherwise the part
itself. -/
inductive StandsFor (values : Table String String) : Piece → List Char → Prop
  | literal (c : Char) : StandsFor values (.literal c) [c]
  | known {name : List Char} {value : String}
      (has : values.get? (String.ofList name) = some value) :
      StandsFor values (.reference name) value.toList
  | unknown {name : List Char} (without : values.get? (String.ofList name) = none) :
      StandsFor values (.reference name) ('$' :: '\x7b' :: (name ++ ['\x7d']))

/-- The expansion of a part stands for it. -/
theorem standsFor_expand (values : Table String String) (part : Piece) :
    StandsFor values part (part.expand values) := by
  cases part with
  | literal c => exact .literal c
  | reference name =>
    cases hvalue : values.get? (String.ofList name) with
    | none =>
      rw [Piece.expand, hvalue]
      exact .unknown hvalue
    | some value =>
      rw [Piece.expand, hvalue]
      exact .known hvalue

/-- Expanding a template is expanding its parts and putting them together. -/
theorem expand_of_splits {template : String} {parts : List Piece}
    (h : Splits template.toList parts) (values : Table String String) :
    expand values template = String.ofList (parts.flatMap (Piece.expand values)) := by
  rw [expand, pieces, h.piecesFrom_eq]

/-- The parts before and behind a known reference expand on their own, around its value. -/
theorem expand_of_known {template : String} {front back : List Piece} {name : List Char}
    {values : Table String String} {value : String}
    (h : Splits template.toList (front ++ .reference name :: back))
    (has : values.get? (String.ofList name) = some value) :
    expand values template =
      expand values (String.ofList (front.flatMap Piece.source)) ++ value ++
        expand values (String.ofList (back.flatMap Piece.source)) := by
  obtain ⟨hfront, hrest⟩ := h.of_append
  rw [← List.singleton_append] at hrest
  have hback := hrest.of_append.2
  rw [← @String.toList_ofList (front.flatMap Piece.source)] at hfront
  rw [← @String.toList_ofList (back.flatMap Piece.source)] at hback
  have hvalue : Piece.expand values (.reference name) = value.toList := by
    rw [Piece.expand, has]
  rw [expand_of_splits h, expand_of_splits hfront, expand_of_splits hback, List.flatMap_append,
    List.flatMap_cons, hvalue, String.ofList_append, String.ofList_append, String.ofList_toList,
    String.append_assoc]

/-- Parts without a value stay as they are. -/
theorem expand_of_unknown {template : String} {parts : List Piece}
    {values : Table String String} (h : Splits template.toList parts)
    (without : ∀ name, .reference name ∈ parts → values.get? (String.ofList name) = none) :
    expand values template = template := by
  have hsource : parts.flatMap (Piece.expand values) = parts.flatMap Piece.source := by
    refine List.flatMap_congr fun part hpart => ?_
    cases part with
    | literal c => rfl
    | reference name => rw [Piece.expand, without name hpart]
  rw [expand_of_splits h, hsource, h.flatMap_source, String.ofList_toList]

/-! ### The path of a template -/

/-- **A path is expanded in one pass.** The template has its parts in one way only, and the path is
the normal form of what stands for them, one after the other. The value of a reference is not
expanded again: what stands around it is what the parts before and behind it expand to on their own.
A template in which no reference has a value stays as it is. -/
theorem resolvePath_of_parts (host : Host) (template source workspace : String) :
    let values := bindings (host.absolute workspace) (host.absolute source)
    ∃ parts, Splits template.toList parts ∧
      (∀ others, Splits template.toList others → others = parts) ∧
      (∃ texts, List.Forall₂ (StandsFor values) parts texts ∧
        resolvePath host template source workspace =
          Path.normalize (String.ofList texts.flatten)) ∧
      (∀ front name back value, parts = front ++ .reference name :: back →
        values.get? (String.ofList name) = some value →
        ∃ before after, template.toList =
            before.toList ++ '$' :: '\x7b' :: (name ++ '\x7d' :: after.toList) ∧
          resolvePath host template source workspace =
            Path.normalize (expand values before ++ value ++ expand values after)) ∧
      ((∀ name, .reference name ∈ parts → values.get? (String.ofList name) = none) →
        resolvePath host template source workspace = Path.normalize template) := by
  intro values
  have hsplits : Splits template.toList (pieces template) := splits_piecesFrom _
  refine ⟨pieces template, hsplits, fun others hothers => hothers.piecesFrom_eq.symm, ?_, ?_, ?_⟩
  · refine ⟨(pieces template).map (Piece.expand values), ?_, ?_⟩
    · rw [List.forall₂_map_right_iff, List.forall₂_same]
      exact fun part _ => standsFor_expand values part
    · rw [resolvePath, expand, List.flatMap_def]
  · intro front name back value hparts hvalue
    rw [hparts] at hsplits
    refine ⟨String.ofList (front.flatMap Piece.source), String.ofList (back.flatMap Piece.source),
      ?_, congrArg Path.normalize (expand_of_known hsplits hvalue)⟩
    rw [← hsplits.flatMap_source]
    simp [Piece.source]
  · exact fun without => congrArg Path.normalize (expand_of_unknown hsplits without)

/-- A reference to the file, behind one to a name that holds the beginning of another one, and
before one that is never closed. -/
def nestedTemplate : String := "$\x7b$\x7bfile\x7d\x7d/$\x7bfile\x7d$\x7bfile"

/-- A machine with a working directory. -/
def placedHost : Host := { directory := "/w" }

/-- The name of the source reads like a reference and stays as it is, and so does a reference
without a value. -/
theorem resolvePath_of_parts_sample :
    (Splits nestedTemplate.toList ([.reference "$\x7bfile".toList, .literal '\x7d', .literal '/'] ++
        .reference "file".toList :: "$\x7bfile".toList.map .literal) ∧
      (bindings "/w" "/w/$\x7bfile\x7d").get? "file" = some "/w/$\x7bfile\x7d" ∧
      ∃ before after, nestedTemplate.toList =
          before.toList ++ '$' :: '\x7b' :: ("file".toList ++ '\x7d' :: after.toList) ∧
        resolvePath placedHost nestedTemplate "$\x7bfile\x7d" "." =
          Path.normalize (expand (bindings "/w" "/w/$\x7bfile\x7d") before ++
            "/w/$\x7bfile\x7d" ++ expand (bindings "/w" "/w/$\x7bfile\x7d") after)) ∧
    ((∀ name, .reference name ∈ [Piece.reference "x".toList] →
        (bindings "/w" "/w/a").get? (String.ofList name) = none) ∧
      resolvePath placedHost "$\x7bx\x7d" "a" "." = "$\x7bx\x7d") := by
  have hworkspace : placedHost.absolute "." = "/w" := by decide +kernel
  have hfile : placedHost.absolute "$\x7bfile\x7d" = "/w/$\x7bfile\x7d" := by decide +kernel
  have hsource : placedHost.absolute "a" = "/w/a" := by decide +kernel
  have hparts : Splits nestedTemplate.toList
      ([.reference "$\x7bfile".toList, .literal '\x7d', .literal '/'] ++
        .reference "file".toList :: "$\x7bfile".toList.map .literal) :=
    piecesFrom_eq_iff.1 (by decide +kernel)
  have hvalue : (bindings "/w" "/w/$\x7bfile\x7d").get? "file" = some "/w/$\x7bfile\x7d" := by
    decide +kernel
  have hwithout : ∀ name, .reference name ∈ [Piece.reference "x".toList] →
      (bindings "/w" "/w/a").get? (String.ofList name) = none := by
    intro name hname
    obtain rfl := Piece.reference.inj (List.mem_singleton.1 hname)
    decide +kernel
  obtain ⟨parts, -, hunique, -, hknown, -⟩ :=
    resolvePath_of_parts placedHost nestedTemplate "$\x7bfile\x7d" "."
  obtain ⟨others, -, hother, -, -, hunknown⟩ :=
    resolvePath_of_parts placedHost "$\x7bx\x7d" "a" "."
  have hsingle : [Piece.reference "x".toList] = others :=
    hother _ (piecesFrom_eq_iff.1 (by decide +kernel))
  rw [hworkspace, hfile] at hknown
  rw [hworkspace, hsource, ← hsingle] at hunknown
  have hplain : Path.normalize "$\x7bx\x7d" = "$\x7bx\x7d" := by decide +kernel
  exact ⟨⟨hparts, hvalue, hknown _ _ _ _ (hunique _ hparts).symm hvalue⟩, hwithout,
    (hunknown hwithout).trans hplain⟩

end AsmScope.Variables
