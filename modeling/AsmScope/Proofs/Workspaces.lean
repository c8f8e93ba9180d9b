import AsmScope.Proofs.Expansion
import AsmScope.Proofs.Lookup
/-! # Sources as seen from a workspace

The relative path of a file leads up from the workspace to the directory that both lie in, and down
from there by the rest of the names of the file (`stepsTo`). Behind the workspace and a slash it
gives the names of the file again (`Normal.normalNames_relative`). The path that a template gives is
the file then, but for the slash of the root: behind it the slash of the template is a second one,
and a normal form keeps two slashes at its beginning (`Normal.normalize_relative`).

The directory that both lie in is the workspace exactly if nothing leads up
(`Normal.common_eq_iff`). -/

namespace AsmScope

namespace Path

namespace Chars

/-! ### Names that two paths share -/

/-- What two paths share is the front of the one. -/
theorem sharedNames_prefix_left (here there : List Name) : sharedNames here there <+: here := by
  fun_induction sharedNames here there with
  | case1 name here there ih => exact (List.prefix_cons_inj _).2 ih
  | case2 => exact List.nil_prefix
  | case3 => exact List.nil_prefix

/-- What two paths share is the front of the other. -/
theorem sharedNames_prefix_right (here there : List Name) : sharedNames here there <+: there := by
  fun_induction sharedNames here there with
  | case1 name here there ih => exact (List.prefix_cons_inj _).2 ih
  | case2 => exact List.nil_prefix
  | case3 => exact List.nil_prefix

/-- The names that lead from one directory to a path: up to what both share, and down again. -/
def stepsTo (here there : List Name) : List Name :=
  List.replicate (here.length - (sharedNames here there).length) ['.', '.'] ++
    there.drop (sharedNames here there).length

section Steps

variable {here there : List Name}

/-- Where no step leads there one is there already. -/
theorem eq_of_stepsTo_eq_nil (h : stepsTo here there = []) : here = there := by
  rw [stepsTo, List.append_eq_nil_iff, List.replicate_eq_nil_iff, List.drop_eq_nil_iff] at h
  have hleft := sharedNames_prefix_left here there
  have hright := sharedNames_prefix_right here there
  have hhere : sharedNames here there = here :=
    hleft.eq_of_length (Nat.le_antisymm hleft.length_le (Nat.sub_eq_zero_iff_le.1 h.1))
  have hthere : sharedNames here there = there :=
    hright.eq_of_length (Nat.le_antisymm hright.length_le h.2)
  exact hhere.symm.trans hthere

/-- No step is empty, and none has a slash in it. -/
theorem plain_of_mem_stepsTo (h : ∀ name ∈ there, Proper name) {step : Name}
    (hstep : step ∈ stepsTo here there) : step ≠ [] ∧ '/' ∉ step := by
  rcases List.mem_append.1 hstep with hup | hdown
  · rw [List.eq_of_mem_replicate hup]
    decide
  · have hproper := h step (List.mem_of_mem_drop hdown)
    exact ⟨hproper.ne_nil, hproper.plain⟩

/-- The first step leads up exactly if not all names are shared. -/
theorem head?_stepsTo_eq_iff (h : ∀ name ∈ there, Proper name) :
    (stepsTo here there).head? = some ['.', '.'] ↔ sharedNames here there ≠ here := by
  have hleft := sharedNames_prefix_left here there
  cases hlength : here.length - (sharedNames here there).length with
  | zero =>
    have hall : sharedNames here there = here :=
      hleft.eq_of_length (Nat.le_antisymm hleft.length_le (Nat.sub_eq_zero_iff_le.1 hlength))
    refine iff_of_false (fun hup => ?_) (not_not_intro hall)
    rw [stepsTo, hlength, List.replicate_zero, List.nil_append] at hup
    exact (h _ (List.mem_of_mem_drop (List.mem_of_head? hup))).ne_up rfl
  | succ n =>
    refine iff_of_true ?_ fun hall => ?_
    · rw [stepsTo, hlength, List.replicate_succ]
      rfl
    · rw [hall, Nat.sub_self] at hlength
      exact absurd hlength (Nat.succ_ne_zero n).symm

/-- Steps up take names away, from the last one on. -/
theorem foldl_addName_replicate_up {names : List Name} (h : ∀ name ∈ names, Proper name) (n : Nat) :
    (List.replicate n ['.', '.']).foldl (addName true) names = names.drop n := by
  induction n generalizing names with
  | zero => rfl
  | succ n ih =>
    rw [List.replicate_succ, List.foldl_cons]
    cases names with
    | nil =>
      have hroot : addName true [] ['.', '.'] = [] := rfl
      rw [hroot, ih h, List.drop_nil, List.drop_nil]
    | cons last names =>
      obtain ⟨hlast, hnames⟩ := List.forall_mem_cons.1 h
      have hup : addName true (last :: names) ['.', '.'] = names := by
        simp [addName, hlast.ne_up]
      rw [hup, ih hnames, List.drop_succ_cons]

/-- The steps from one directory to a path lead from its names to those of the path. -/
theorem foldl_addName_stepsTo (hhere : ∀ name ∈ here, Proper name)
    (hthere : ∀ name ∈ there, Proper name) :
    (stepsTo here there).foldl (addName true) here.reverse = there.reverse := by
  have hleft := sharedNames_prefix_left here there
  have hright := sharedNames_prefix_right here there
  have hreverse : ∀ name ∈ here.reverse, Proper name := fun name hname =>
    hhere name (List.mem_reverse.1 hname)
  have hdown : ∀ name ∈ there.drop (sharedNames here there).length, Proper name :=
    fun name hname => hthere name (List.mem_of_mem_drop hname)
  have hshared : here.reverse.drop (here.length - (sharedNames here there).length) =
      (sharedNames here there).reverse := by
    rw [List.drop_reverse, Nat.sub_sub_self hleft.length_le, ← List.prefix_iff_eq_take.1 hleft]
  rw [stepsTo, List.foldl_append, foldl_addName_replicate_up hreverse, hshared,
    foldl_addName_of_proper true hdown, ← List.reverse_append]
  conv_rhs => rw [← List.take_append_drop (sharedNames here there).length there,
    ← List.prefix_iff_eq_take.1 hright]

end Steps

/-! ### The relative path -/

/-- A path without a slash is not absolute. -/
theorem isAbsolute_eq_false_of_notMem {name : List Char} (h : '/' ∉ name) :
    isAbsolute name = false := by
  rw [Bool.eq_false_iff]
  intro habsolute
  obtain ⟨rest, rfl⟩ := exists_cons_of_isAbsolute habsolute
  exact h List.mem_cons_self

/-- Names that are joined one after the other stand between slashes. -/
theorem foldl_join {names : List Name} (plain : ∀ name ∈ names, name ≠ [] ∧ '/' ∉ name)
    {base : List Char} (ne : base ≠ []) (ends : base.getLast? ≠ some '/') :
    names.foldl join base = ['/'].intercalate (base :: names) := by
  induction names generalizing base with
  | nil => simp
  | cons name names ih =>
    obtain ⟨⟨hne, hplain⟩, hnames⟩ := List.forall_mem_cons.1 plain
    have hjoin : join base name = base ++ '/' :: name := by
      have hends : (base.isEmpty || base.getLast? == some '/') = false := by simp [ne, ends]
      rw [join, isAbsolute_eq_false_of_notMem hplain, hends]
      rfl
    have hlast : (base ++ '/' :: name).getLast? ≠ some '/' := by
      intro hlast
      rw [List.append_cons, List.getLast?_append_of_ne_nil _ hne] at hlast
      exact hplain (List.mem_of_getLast? hlast)
    rw [List.foldl_cons, hjoin, ih hnames (by simp) hlast]
    cases names <;> simp [List.intercalate]

namespace Normal

variable {here there : List Name} {base p : List Char}

/-- The relative path is its steps with slashes between them. -/
theorem relative_eq (hbase : Normal 1 here base) (hp : Normal 1 there p) :
    relative base p =
      if stepsTo here there = [] then ['.'] else ['/'].intercalate (stepsTo here there) := by
  rw [relative, hbase.plainNames_eq, hp.plainNames_eq, ← stepsTo]
  cases hsteps : stepsTo here there with
  | nil => rfl
  | cons name names =>
    have hplain : ∀ step ∈ name :: names, step ≠ [] ∧ '/' ∉ step := fun step hstep =>
      plain_of_mem_stepsTo hp.proper (hsteps ▸ hstep)
    obtain ⟨⟨hne, hname⟩, hnames⟩ := List.forall_mem_cons.1 hplain
    rw [if_neg (List.cons_ne_nil _ _)]
    exact foldl_join hnames hne fun hlast => hname (List.mem_of_getLast? hlast)

/-- The parts of a relative path are the steps that lead there, or the dot if there are none. -/
theorem cutAt_relative (hbase : Normal 1 here base) (hp : Normal 1 there p) :
    Text.cutAt '/' (relative base p) =
      if stepsTo here there = [] then [['.']] else stepsTo here there := by
  rw [hbase.relative_eq hp]
  split
  · rfl
  · next hne =>
    exact Text.cutAt_intercalate hne fun step hstep => (plain_of_mem_stepsTo hp.proper hstep).2

/-- What follows a directory goes on from its names. -/
theorem normalNames_append (hbase : Normal 1 here base) (rest : List Char) :
    normalNames (base ++ '/' :: rest) =
      ((Text.cutAt '/' rest).foldl (addName true) here.reverse).reverse := by
  have hrooted (q : List Char) (h : Chars.isAbsolute q) :
      decide (0 < rootSlashes q) = true := decide_eq_true (rootSlashes_pos h)
  have habsolute : Chars.isAbsolute (base ++ '/' :: rest) := by
    obtain ⟨later, hlater⟩ := exists_cons_of_isAbsolute hbase.isAbsolute
    rw [hlater]
    rfl
  have hnames := hbase.normalNames_eq
  rw [normalNames, hrooted base hbase.isAbsolute, List.reverse_eq_iff] at hnames
  rw [normalNames, hrooted _ habsolute, Text.cutAt_append_cons, List.foldl_append, hnames]

/-- **Behind the directory, the relative path gives the names of the path.** -/
theorem normalNames_relative (hbase : Normal 1 here base) (hp : Normal 1 there p) :
    normalNames (base ++ '/' :: relative base p) = there := by
  rw [hbase.normalNames_append, hbase.cutAt_relative hp]
  split
  · next hnil =>
    have hhere : addName true here.reverse ['.'] = here.reverse := if_pos (.inr rfl)
    rw [List.foldl_cons, List.foldl_nil, hhere, List.reverse_reverse, eq_of_stepsTo_eq_nil hnil]
  · rw [foldl_addName_stepsTo hbase.proper hp.proper, List.reverse_reverse]

/-- A relative path is not absolute. -/
theorem isAbsolute_relative (hbase : Normal 1 here base) (hp : Normal 1 there p) :
    Chars.isAbsolute (relative base p) = false := by
  rw [Bool.eq_false_iff]
  intro habsolute
  obtain ⟨rest, hrest⟩ := exists_cons_of_isAbsolute habsolute
  -- before a slash at the beginning there would be an empty name
  have hempty : [] ∈ Text.cutAt '/' (relative base p) := by simp [hrest, Text.cutAt]
  rw [hbase.cutAt_relative hp] at hempty
  split at hempty
  · simp at hempty
  · exact (plain_of_mem_stepsTo hp.proper hempty).1 rfl

/-- Behind the root, a slash is a second one; behind any other directory it stands between names. -/
theorem rootSlashes_append (hbase : Normal 1 here base) {rest : List Char}
    (relative : Chars.isAbsolute rest = false) :
    rootSlashes (base ++ '/' :: rest) = if here = [] then 2 else 1 := by
  rw [hbase.eq, ofNames_one]
  split
  · next hnil =>
    -- the root and the slash that joins make two
    subst hnil
    change rootSlashes ('/' :: '/' :: rest) = 2
    rw [rootSlashes]
    rintro later rfl
    cases relative
  · next hne =>
    cases hnames : ['/'].intercalate here with
    | nil =>
      have hcut := Text.cutAt_intercalate hne fun name hname => (hbase.proper name hname).plain
      rw [hnames] at hcut
      exact absurd rfl (hbase.proper [] (by simp [← hcut, Text.cutAt])).ne_nil
    | cons c later =>
      have hc : c ≠ '/' := fun hc => ne_slash_of_proper hbase.proper (hc ▸ hnames)
      change rootSlashes ('/' :: c :: (later ++ '/' :: rest)) = 1
      unfold rootSlashes
      split <;> simp_all

/-- **The relative path leads back** from any directory but the root, where it gets a slash more. -/
theorem normalize_relative (hbase : Normal 1 here base) (hp : Normal 1 there p) :
    normalize (base ++ '/' :: relative base p) = if here = [] then '/' :: p else p := by
  rw [normalize, hbase.normalNames_relative hp,
    hbase.rootSlashes_append (hbase.isAbsolute_relative hp), hp.eq]
  split <;> rfl

/-- **What both share is the directory itself** exactly if the relative path does not lead up. -/
theorem common_eq_iff (hbase : Normal 1 here base) (hp : Normal 1 there p) :
    common base p = base ↔
      (Text.cutAt '/' (relative base p)).head? ≠ some ['.', '.'] := by
  have hplain {names : List Name} (h : ∀ name ∈ names, Proper name) :
      names.filter (· ≠ ['.']) = names :=
    List.filter_eq_self.2 fun name hname => decide_eq_true (h name hname).ne_here
  have hcommon : common base p = ofNames 1 (sharedNames here there) := by
    rw [common]
    dsimp only
    rw [hbase.plainNames_eq, hp.plainNames_eq, hplain hbase.proper, hplain hp.proper, ofNames_one]
  have hnormal : Normal 1 (sharedNames here there) (common base p) :=
    ⟨Nat.one_pos, fun name hname =>
      hbase.proper name ((sharedNames_prefix_left here there).subset hname), hcommon⟩
  -- the common directory is the workspace when all its names are shared
  have hshared : common base p = base ↔ sharedNames here there = here := by
    constructor
    · intro hsame
      rw [← hnormal.plainNames_eq, hsame, hbase.plainNames_eq]
    · intro hall
      rw [hcommon, hall, hbase.eq]
  -- and then the way to the file does not begin by going up
  have hfirst := (@head?_stepsTo_eq_iff here _ hp.proper).not_left
  rw [hshared, ← hfirst, hbase.cutAt_relative hp]
  split
  · next hnil =>
    rw [hnil]
    decide
  · rfl

end Normal

end Chars

namespace Rooted

variable {base p : String}

/-- A path leads back from a directory by its relative path, but for a slash more at the root. -/
theorem normalize_relative (hbase : Rooted base) (hp : Rooted p) :
    normalize (base ++ "/" ++ relative base p) = if base = "/" then "/" ++ p else p := by
  obtain ⟨here, hbase⟩ := hbase
  obtain ⟨there, hp⟩ := hp
  -- the root has no names, and its text ends in the slash already
  have hroot : base = "/" ↔ here = [] := by
    rw [← String.toList_inj, hbase.eq]
    constructor
    · intro hslash
      rw [← hbase.plainNames_eq, hbase.eq, hslash]
      rfl
    · rintro rfl
      rfl
  have hchars : (base ++ "/" ++ relative base p).toList =
      base.toList ++ '/' :: Chars.relative base.toList p.toList := by
    simp [relative]
  rw [normalize, hchars, hbase.normalize_relative hp]
  simp only [hroot]
  split
  · exact String.toList_inj.1 (by simp)
  · rw [String.ofList_toList]

/-- What a base shares with a path is the base exactly if the relative path does not begin by going
up. -/
theorem common_eq_iff (hbase : Rooted base) (hp : Rooted p) :
    common base p = base ↔
      (Text.cutAt '/' (relative base p).toList).head? ≠ some ['.', '.'] := by
  obtain ⟨here, hbase⟩ := hbase
  obtain ⟨there, hp⟩ := hp
  rw [common, relative, String.toList_ofList, ← hbase.common_eq_iff hp, ← String.toList_inj,
    String.toList_ofList]

end Rooted

end Path

namespace Variables

/-! ### The variables of a workspace -/

section Expansions

variable (workspace source : String)

/-- A template that is one reference expands to the value of its name. -/
theorem expand_reference {values : Table String String} {template value : String} (name : String)
    (single : pieces template = [.reference name.toList]) (has : values.get? name = some value) :
    expand values template = value := by
  rw [expand, single, List.flatMap_singleton, Piece.expand, String.ofList_toList, has]
  exact String.ofList_toList

/-- A reference to the file is expanded to the source. -/
theorem expand_file : expand (bindings workspace source) "$\x7bfile\x7d" = source :=
  expand_reference "file" (by decide +kernel) rfl

/-- One to the relative file is expanded to its path from the workspace. -/
theorem expand_relativeFile :
    expand (bindings workspace source) "$\x7brelativeFile\x7d" =
      Path.relative workspace source :=
  expand_reference "relativeFile" (by decide +kernel) rfl

/-- One to the workspace folder of the file is expanded to the workspace, if the source is in it. -/
theorem expand_fileWorkspaceFolder :
    expand (bindings workspace source) "$\x7bfileWorkspaceFolder\x7d" =
      if Path.common workspace source = workspace then workspace else "" :=
  expand_reference "fileWorkspaceFolder" (by decide +kernel) rfl

/-- The relative file below the workspace folder is expanded to both with a slash between them. -/
theorem expand_relativeFile_below :
    expand (bindings workspace source) "$\x7bworkspaceFolder\x7d/$\x7brelativeFile\x7d" =
      workspace ++ "/" ++ Path.relative workspace source := by
  have hparts : pieces "$\x7bworkspaceFolder\x7d/$\x7brelativeFile\x7d" =
      [.reference "workspaceFolder".toList, .literal '/', .reference "relativeFile".toList] := by
    decide +kernel
  rw [expand, hparts, ← String.toList_inj]
  simp [Piece.expand, bindings, Table.get?]

end Expansions

/-- **The variables of a workspace fit together.** The relative path of a file, behind its workspace
and a slash, gives the path of the file; behind the root it gives that path with a slash more. The
file counts as one of the workspace exactly if the relative path does not begin by leading up. -/
theorem paths_of_workspace {host : Host} {source workspace : String}
    (rooted : Path.isAbsolute host.directory)
    (single : ¬['/', '/'] <+: (host.absolute workspace).toList)
    (single' : ¬['/', '/'] <+: (host.absolute source).toList) :
    let values := bindings (host.absolute workspace) (host.absolute source)
    let file := resolvePath host "$\x7bfile\x7d" source workspace
    file = host.absolute source ∧
      resolvePath host "$\x7bworkspaceFolder\x7d/$\x7brelativeFile\x7d" source workspace =
        (if host.absolute workspace = "/" then "/" ++ file else file) ∧
      (expand values "$\x7bfileWorkspaceFolder\x7d" = host.absolute workspace ↔
        (Text.cutAt '/' (expand values "$\x7brelativeFile\x7d").toList).head? ≠
          some ['.', '.']) := by
  have hworkspace : Path.Rooted (host.absolute workspace) :=
    (Path.normal_absolute rooted workspace).rooted single
  have hsource : Path.Rooted (host.absolute source) :=
    (Path.normal_absolute rooted source).rooted single'
  have hfile : resolvePath host "$\x7bfile\x7d" source workspace = host.absolute source := by
    rw [resolvePath, expand_file, hsource.normalize_eq]
  intro values file
  refine ⟨hfile, ?_, ?_⟩
  · rw [resolvePath, expand_relativeFile_below, hworkspace.normalize_relative hsource, ← hfile]
  -- an empty value is not the workspace, which is absolute
  · have hne : ("" : String) ≠ host.absolute workspace := by
      intro hempty
      have habsolute := hworkspace.isAbsolute
      rw [← hempty] at habsolute
      cases habsolute
    rw [expand_fileWorkspaceFolder, expand_relativeFile, ← hworkspace.common_eq_iff hsource]
    split
    · next hin => exact iff_of_true rfl hin
    · next hout => exact iff_of_false hne hout

/-- A file beside the workspace, whose name begins like that of the workspace. -/
theorem paths_of_workspace_sample :
    Path.isAbsolute placedHost.directory ∧
      ¬['/', '/'] <+: (placedHost.absolute ".").toList ∧
      ¬['/', '/'] <+: (placedHost.absolute "../wa/b").toList ∧
      resolvePath placedHost "$\x7bworkspaceFolder\x7d/$\x7brelativeFile\x7d" "../wa/b" "." =
        "/wa/b" ∧
      expand (bindings "/w" "/wa/b") "$\x7bfileWorkspaceFolder\x7d" ≠ "/w" := by
  have hworkspace : placedHost.absolute "." = "/w" := by decide +kernel
  have hsource : placedHost.absolute "../wa/b" = "/wa/b" := by decide +kernel
  have hrooted : Path.isAbsolute placedHost.directory := by decide
  have hsingle : ¬['/', '/'] <+: (placedHost.absolute ".").toList := by
    rw [hworkspace]
    decide
  have hsingle' : ¬['/', '/'] <+: (placedHost.absolute "../wa/b").toList := by
    rw [hsource]
    decide
  obtain ⟨hfile, hbelow, hiff⟩ := paths_of_workspace hrooted hsingle hsingle'
  rw [hfile, hworkspace, hsource] at hbelow
  rw [hworkspace, hsource] at hiff
  exact ⟨hrooted, hsingle, hsingle', hbelow, fun hin => hiff.1 hin (by decide +kernel)⟩

/-- **Not every relative path leads back**: behind the root it gives a path with two slashes at its
beginning. -/
theorem not_all_relative_paths_lead_back :
    ¬∀ (host : Host) (source workspace : String), Path.isAbsolute host.directory →
      ¬['/', '/'] <+: (host.absolute workspace).toList →
      ¬['/', '/'] <+: (host.absolute source).toList →
      resolvePath host "$\x7bworkspaceFolder\x7d/$\x7brelativeFile\x7d" source workspace =
        resolvePath host "$\x7bfile\x7d" source workspace := by
  intro hall
  have hworkspace : placedHost.absolute "/" = "/" := by decide +kernel
  have hsource : placedHost.absolute "/a" = "/a" := by decide +kernel
  have hsame := hall placedHost "/a" "/" (by decide) (by rw [hworkspace]; decide)
    (by rw [hsource]; decide)
  have hbelow : resolvePath placedHost "$\x7bworkspaceFolder\x7d/$\x7brelativeFile\x7d" "/a" "/" =
      "//a" := by
    decide +kernel
  have hfile : resolvePath placedHost "$\x7bfile\x7d" "/a" "/" = "/a" := by decide +kernel
  rw [hbelow, hfile] at hsame
  revert hsame
  decide

end Variables

end AsmScope
