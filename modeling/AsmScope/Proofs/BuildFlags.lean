import AsmScope.Proofs.Entries
/-! # Flags of the build among arguments

An `-o` takes the argument after it, whatever that is, so an `-o` may itself be the value of the one
before it. Which of the two it is depends on how many of them stand in a row: flags and values
alternate there, and the argument behind the row is a value exactly if the row is odd. So what is
dropped can be told at every place from what stands before it (`filter_matters_append`), however
far back the row begins, and the vector of an entry is known from its words
(`reconstruct_of_words`). -/

namespace AsmScope.CompileCommand

instance (argument : String) : Decidable (IsBuildFlag argument) :=
  inferInstanceAs (Decidable (_ ∨ _))

/-- The row of `-o` at the end of a list of arguments. -/
def outputRow (front : List String) : List String := front.rtakeWhile (· = "-o")

/-- The argument with this number is no flag of the build, and the row of `-o` that ends directly
before it leaves it alone. -/
def Matters (arguments : List String) (argument : String) (place : Nat) : Prop :=
  ¬IsBuildFlag argument ∧ Even (outputRow (arguments.take place)).length

instance (arguments : List String) (argument : String) (place : Nat) :
    Decidable (Matters arguments argument place) :=
  inferInstanceAs (Decidable (_ ∧ _))

/-- Whether an argument matters is told by itself and by the row of output options right before
it. -/
theorem matters_append_iff (front back : List String) (argument : String) :
    Matters (front ++ back) argument front.length ↔
      ¬IsBuildFlag argument ∧ Even (outputRow front).length := by
  rw [Matters, List.take_left]

/-! ### Rows -/

/-- The row of output options at the end grows by one more such option and is cut by everything
else. -/
theorem outputRow_concat (front : List String) (argument : String) :
    outputRow (front ++ [argument]) =
      if argument = "-o" then outputRow front ++ [argument] else [] := by
  simp [outputRow, List.rtakeWhile_concat]

/-- Any argument but an `-o` ends the row. -/
theorem even_outputRow_concat {argument : String} (other : argument ≠ "-o") (front : List String) :
    Even (outputRow (front ++ [argument])).length := by
  rw [outputRow_concat, if_neg other]
  exact Even.zero

/-- Behind an even row, an `-o` makes the row odd. -/
theorem odd_outputRow_concat {front : List String} (even : Even (outputRow front).length) :
    ¬Even (outputRow (front ++ ["-o"])).length := by
  rw [outputRow_concat, if_pos rfl, List.length_append, List.length_singleton, Nat.even_add_one]
  exact not_not_intro even

/-- The value of an `-o` leaves an even row, also where it is an `-o` itself. -/
theorem even_outputRow_value {front : List String} (even : Even (outputRow front).length)
    (value : String) : Even (outputRow ((front ++ ["-o"]) ++ [value])).length := by
  by_cases hvalue : value = "-o"
  · rw [hvalue, outputRow_concat, if_pos rfl, List.length_append, List.length_singleton,
      Nat.even_add_one]
    exact odd_outputRow_concat even
  · exact even_outputRow_concat hvalue _

/-! ### What is left -/

/-- The arguments that matter from a place on are the one there, if it does, and those behind it. -/
theorem filter_matters_cons (front rest : List String) (argument : String) :
    (((argument :: rest).zipIdx front.length).filter fun entry =>
        Matters (front ++ argument :: rest) entry.1 entry.2).map Prod.fst =
      (if ¬IsBuildFlag argument ∧ Even (outputRow front).length then [argument] else []) ++
        ((rest.zipIdx (front ++ [argument]).length).filter fun entry =>
          Matters ((front ++ [argument]) ++ rest) entry.1 entry.2).map Prod.fst := by
  rw [List.zipIdx_cons, List.filter_cons, List.append_assoc, List.singleton_append,
    List.length_append, List.length_singleton]
  simp only [matters_append_iff, decide_eq_true_eq]
  split <;> simp

/-- **What is left are the arguments that matter**, seen from all that stands before them. -/
theorem filter_matters_append {front : List String} (even : Even (outputRow front).length)
    (arguments : List String) :
    ((arguments.zipIdx front.length).filter fun entry =>
        Matters (front ++ arguments) entry.1 entry.2).map Prod.fst = dropBuildFlags arguments := by
  fun_induction dropBuildFlags arguments generalizing front with
  | case1 => rfl
  | case2 argument hflag =>
    rw [filter_matters_cons, if_neg fun hkept => hkept.1 hflag]
    rfl
  | case3 argument hflag =>
    rw [filter_matters_cons, if_pos ⟨hflag, even⟩]
    rfl
  | case4 next rest ih =>
    -- the flag makes the row odd, so that its value is dropped, and behind it the row is even again
    rw [filter_matters_cons, if_neg fun hkept => hkept.1 (.inl rfl), filter_matters_cons,
      if_neg fun hkept => odd_outputRow_concat even hkept.2]
    exact ih (even_outputRow_value even next)
  | case5 argument next rest hoption hflag ih =>
    rw [filter_matters_cons, if_neg fun hkept => hkept.1 (.inr hflag)]
    exact ih (even_outputRow_concat hoption front)
  | case6 argument next rest hoption hflag ih =>
    rw [filter_matters_cons, if_pos ⟨not_or.2 ⟨hoption, hflag⟩, even⟩,
      ih (even_outputRow_concat hoption front)]
    rfl

/-- Where no argument is a build flag nothing is dropped. -/
theorem dropBuildFlags_of_forall {arguments : List String}
    (free : ∀ argument ∈ arguments, ¬IsBuildFlag argument) :
    dropBuildFlags arguments = arguments := by
  fun_induction dropBuildFlags arguments with
  | case1 => rfl
  | case2 argument hflag => exact absurd hflag (free argument List.mem_cons_self)
  | case3 => rfl
  | case4 next rest ih => exact absurd (.inl rfl) (free "-o" List.mem_cons_self)
  | case5 argument next rest hoption hflag ih =>
    exact absurd (.inr hflag) (free argument List.mem_cons_self)
  | case6 argument next rest hoption hflag ih =>
    rw [ih fun other hother => free other (List.mem_cons_of_mem _ hother)]

/-! ### The vector of an entry -/

/-- **The vector of an entry** is the compiler, read from the entry's directory, and the arguments
that matter, in order: those that are no flag of the build, behind an even row of `-o`. No flag is
left, not even one that was the value of an `-o`, and dropping flags again drops nothing. -/
theorem reconstruct_of_words {command : Option String} {arguments : Option (List String)}
    {compiler : String} {rest : List String}
    (words : command.getD "" = "" ∧ arguments = some (compiler :: rest) ∨
      ∃ line, command = some line ∧ line ≠ "" ∧ CommandLine.split line = compiler :: rest)
    (directory : String) :
    ∃ kept, reconstruct command arguments directory = Path.join directory compiler :: kept ∧
      kept = (rest.zipIdx.filter fun entry => Matters rest entry.1 entry.2).map Prod.fst ∧
      (∀ argument ∈ kept, argument ≠ "-c" ∧ argument ≠ "-g" ∧ argument ≠ "-o") ∧
      dropBuildFlags kept = kept ∧
      ∀ again, reconstruct none (some (Path.join directory compiler :: kept)) again =
        Path.join again (Path.join directory compiler) :: kept := by
  -- both ways to give the words lead to the same list
  have hraw : rawArguments command arguments = compiler :: rest := by
    rcases words with ⟨hline, rfl⟩ | ⟨line, rfl, hline, hsplit⟩
    · cases command with
      | none => rfl
      | some line =>
        obtain rfl : line = "" := hline
        rfl
    · have hempty : line.isEmpty = false := by simpa using hline
      rw [rawArguments, hempty, ← hsplit]
      rfl
  -- after the flags are dropped none is left, so a second time drops nothing
  have hnone : ∀ argument ∈ dropBuildFlags rest, ¬IsBuildFlag argument := fun argument hleft =>
    not_isBuildFlag_of_mem_dropBuildFlags hleft
  have hdropped := dropBuildFlags_of_forall hnone
  refine ⟨dropBuildFlags rest, ?_, ?_, ?_, hdropped, ?_⟩
  · rw [reconstruct, hraw]
  -- no row of -o is open before the first word
  · have hstart : Even (outputRow []).length := Even.zero
    exact (filter_matters_append hstart rest).symm
  · intro argument hleft
    obtain ⟨houtput, hother⟩ := not_or.1 (hnone argument hleft)
    obtain ⟨hcompile, hdebug⟩ := not_or.1 hother
    exact ⟨hcompile, hdebug, houtput⟩
  · intro again
    rw [reconstruct]
    exact congrArg _ hdropped

/-- A row of two, a row of three and one that a flag follows. -/
theorem reconstruct_of_words_sample :
    ("g++ -o -o -O2 a.c -o -o -o b.o -o -c -g" ≠ "" ∧
      CommandLine.split "g++ -o -o -O2 a.c -o -o -o b.o -o -c -g" =
        "g++" :: ["-o", "-o", "-O2", "a.c", "-o", "-o", "-o", "b.o", "-o", "-c", "-g"]) ∧
      reconstruct (some "g++ -o -o -O2 a.c -o -o -o b.o -o -c -g") none "/w" =
        ["/w/g++", "-O2", "a.c"] := by
  have hline : "g++ -o -o -O2 a.c -o -o -o b.o -o -c -g" ≠ "" := by decide
  have hsplit : CommandLine.split "g++ -o -o -O2 a.c -o -o -o b.o -o -c -g" =
      "g++" :: ["-o", "-o", "-O2", "a.c", "-o", "-o", "-o", "b.o", "-o", "-c", "-g"] := by
    decide +kernel
  obtain ⟨kept, hvector, hkept, -⟩ := @reconstruct_of_words _ none _ _
    (.inr ⟨_, rfl, hline, hsplit⟩) "/w"
  have hmatters : kept = ["-O2", "a.c"] := hkept.trans (by decide +kernel)
  have hcompiler : Path.join "/w" "g++" = "/w/g++" := by decide +kernel
  rw [hmatters, hcompiler] at hvector
  exact ⟨⟨hline, hsplit⟩, hvector⟩

end AsmScope.CompileCommand
