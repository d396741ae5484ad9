import Mathlib.Data.List.Basic
import ScriptHost.Console.Prompt

/-! Where the source of an imported module is looked for. A name that does not start at the root of
the system is looked for below the directory of modules, and in any tree of files what is found
lies below it; a name that does start there is looked for at that place, whatever the directory is.
-/

namespace ScriptHost

/-! ### Parts of paths -/

/-- A part lies between two separators, or at an end. -/
theorem part_between {a : Char} {part cs : List Char} (h : part ∈ cs.splitOn a) :
    ∃ before after, cs = before ++ (part ++ after) ∧ (after = [] ∨ after.head? = some a) := by
  -- The induction is on the length, for it goes from separator to separator.
  induction size : cs.length using Nat.strongRecOn generalizing cs with
  | _ n ih =>
    by_cases separated : a ∈ cs
    · obtain ⟨first, rest, rfl, plain⟩ := List.eq_append_cons_of_mem separated
      rw [List.splitOn_append_cons_self, List.splitOn_eq_singleton plain, List.singleton_append,
        List.mem_cons] at h
      cases h with
      | inl here =>
        subst here
        exact ⟨[], a :: rest, rfl, .inr rfl⟩
      | inr later =>
        have shorter : rest.length < n := by
          rw [← size, List.length_append, List.length_cons]
          omega
        obtain ⟨before, after, cut, ends⟩ := ih rest.length shorter later rfl
        refine ⟨first ++ a :: before, after, ?_, ends⟩
        rw [cut, List.append_assoc, List.cons_append]
    · rw [List.splitOn_eq_singleton separated, List.mem_singleton] at h
      subst h
      exact ⟨[], [], by rw [List.append_nil, List.nil_append], .inl rfl⟩

theorem pathParts_append (path rest : String) :
    pathParts (path ++ "/" ++ rest) = pathParts path ++ pathParts rest := by
  unfold pathParts
  rw [String.toList_append, String.toList_append, List.append_assoc, ← List.map_append,
    ← List.splitOn_append_cons_self]
  rfl

theorem pathParts_ne_nil (path : String) : pathParts path ≠ [] :=
  fun none => List.splitOn_ne_nil _ _ (List.map_eq_nil_iff.mp none)

theorem leadsOut_dots {name : String} {before after : List Char}
    (dots : name.toList = before ++ '.' :: '.' :: after) : leadsOut name = true := by
  unfold leadsOut
  dsimp only
  rw [dots]
  clear dots
  induction before with
  | nil => rfl
  | cons c before ih => cases before <;> exact Bool.or_eq_true_iff.mpr (.inr ih)

section Safe

variable {name : String} (safe : leadsOut name = false)
include safe

/-- A name without two dots in a row has no part that leads up. -/
theorem dots_notMem_parts : ".." ∉ pathParts name := by
  intro found
  obtain ⟨part, within, dots⟩ := List.mem_map.mp found
  obtain rfl : part = ['.', '.'] := String.ofList_inj.mp dots
  obtain ⟨before, after, cut, -⟩ := part_between within
  exact absurd (leadsOut_dots cut) (Bool.eq_false_iff.mp safe)

/-- The ending makes no such part either, for the part that it ends is longer. -/
theorem dots_notMem_ended : ".." ∉ pathParts (name ++ ".wren") := by
  intro found
  obtain ⟨part, within, dots⟩ := List.mem_map.mp found
  obtain rfl : part = ['.', '.'] := String.ofList_inj.mp dots
  obtain ⟨before, after, cut, ends⟩ := part_between within
  have ending : ".wren".toList = ['.', 'w', 'r', 'e', 'n'] := rfl
  rw [String.toList_append, ending] at cut
  obtain ⟨rest, -, behind⟩ | ⟨rest, inside, behind⟩ := List.append_eq_append_iff.mp cut
  · -- The ending has but one dot.
    have dots := congrArg (List.count '.') behind
    rw [List.count_append, List.count_append] at dots
    have two : List.count '.' ['.', '.'] = 2 := rfl
    have one : List.count '.' ['.', 'w', 'r', 'e', 'n'] = 1 := rfl
    omega
  · cases rest with
    | nil => cases behind
    | cons c rest =>
      obtain ⟨rfl, second⟩ := List.cons.inj behind
      cases rest with
      | nil =>
        obtain ⟨-, rfl⟩ := List.cons.inj second
        obtain none | slash := ends
        · cases none
        · cases slash
      | cons d rest =>
        obtain ⟨rfl, -⟩ := List.cons.inj second
        exact absurd (leadsOut_dots inside) (Bool.eq_false_iff.mp safe)

end Safe

/-! ### Paths from a directory -/

/-- A directory as it stands in front of the rest of a path. -/
def slashed (directory : String) : String :=
  if directory.isEmpty || directory.endsWith '/' then directory else directory ++ "/"

theorem slashed_empty : slashed "" = "" := rfl

theorem joinPath_relative (directory : String) {path : String}
    (relative : path.startsWith '/' = false) :
    joinPath directory path = slashed directory ++ path := by
  unfold joinPath slashed
  rw [relative, Bool.false_or]
  cases empty : directory.isEmpty with
  | true =>
    rw [String.isEmpty_iff] at empty
    rw [empty, String.empty_append]
    rfl
  | false =>
    rw [Bool.false_or, if_neg Bool.false_ne_true]
    cases directory.endsWith '/' with
    | true => rfl
    | false => rfl

theorem joinPath_absolute (directory : String) {path : String}
    (absolute : path.startsWith '/' = true) : joinPath directory path = path := by
  unfold joinPath
  rw [absolute, Bool.true_or, if_pos rfl]

theorem startsWith_append {path : String} (named : path ≠ "") (rest : String) (c : Char) :
    (path ++ rest).startsWith c = path.startsWith c := by
  rw [String.startsWith_char_eq_head?, String.startsWith_char_eq_head?, String.toList_append,
    List.head?_append_of_ne_nil _ (mt String.toList_eq_nil_iff.mp named)]

theorem endsWith_append (front : String) {path : String} (named : path ≠ "") (c : Char) :
    (front ++ path).endsWith c = path.endsWith c := by
  rw [String.endsWith_char_eq_getLast?, String.endsWith_char_eq_getLast?, String.toList_append,
    List.getLast?_append_of_ne_nil _ (mt String.toList_eq_nil_iff.mp named)]

/-- From the root of the system or not: that is said by the directory if there is one. -/
theorem startsWith_slashed (directory : String) {path : String}
    (relative : path.startsWith '/' = false) :
    (slashed directory ++ path).startsWith '/' = directory.startsWith '/' := by
  by_cases named : directory = ""
  · rw [named, slashed_empty, String.empty_append, relative]
    rfl
  · unfold slashed
    split
    · exact startsWith_append named path '/'
    · rw [String.append_assoc, startsWith_append named]

theorem slash_ends : "/".endsWith '/' = true := by
  rw [String.endsWith_char_eq_getLast?]
  rfl

theorem slashed_of_ends {directory : String} (ends : directory.endsWith '/' = true) :
    slashed directory = directory := by
  unfold slashed
  rw [ends, Bool.or_true, if_pos rfl]

theorem slashed_of_not_ends {directory : String} (named : directory ≠ "")
    (ends : directory.endsWith '/' = false) : slashed directory = directory ++ "/" := by
  unfold slashed
  rw [ends, Bool.or_false, if_neg (mt String.isEmpty_iff.mp named)]

theorem slashed_append (directory path : String) :
    slashed (slashed directory ++ path) = slashed directory ++ slashed path := by
  by_cases named : path = ""
  · rw [named, slashed_empty, String.append_empty]
    by_cases somewhere : directory = ""
    · rw [somewhere, slashed_empty, slashed_empty]
    · cases ends : directory.endsWith '/' with
      | true => rw [slashed_of_ends ends, slashed_of_ends ends]
      | false =>
        rw [slashed_of_not_ends somewhere ends]
        exact slashed_of_ends ((endsWith_append directory (by decide) '/').trans slash_ends)
  · have same := endsWith_append (slashed directory) named '/'
    cases ends : path.endsWith '/' with
    | true => rw [slashed_of_ends ends, slashed_of_ends (same.trans ends)]
    | false =>
      have longer : slashed directory ++ path ≠ "" := fun none =>
        named (String.append_eq_empty_iff.mp none).2
      rw [slashed_of_not_ends named ends, slashed_of_not_ends longer (same.trans ends),
        String.append_assoc]

/-- A path from a directory that lies in another one is a path from that. -/
theorem joinPath_assoc (directory : String) {path rest : String}
    (relative : path.startsWith '/' = false) (after : rest.startsWith '/' = false) :
    joinPath (joinPath directory path) rest = joinPath directory (joinPath path rest) := by
  have whole : (joinPath path rest).startsWith '/' = false := by
    rw [joinPath_relative path after, startsWith_slashed path after, relative]
  rw [joinPath_relative _ after, joinPath_relative _ relative, joinPath_relative _ whole,
    joinPath_relative _ after, slashed_append, String.append_assoc]

/-- The parts of a path from a directory are those of the directory, but for the end of its slash,
and then the others. -/
theorem pathParts_slashed (directory : String) : ∃ front,
    (pathParts directory = front ∨ pathParts directory = front ++ [""]) ∧
      ∀ path, pathParts (slashed directory ++ path) = front ++ pathParts path := by
  by_cases named : directory = ""
  · refine ⟨[], .inr (by rw [named]; rfl), fun path => ?_⟩
    rw [named, slashed_empty, String.empty_append, List.nil_append]
  · cases ends : directory.endsWith '/' with
    | true =>
      obtain ⟨front, cut⟩ : ∃ front, directory = front ++ "/" := by
        rw [String.endsWith_char_eq_getLast?, beq_iff_eq] at ends
        obtain ⟨front, cut⟩ := List.getLast?_eq_some_iff.mp ends
        refine ⟨String.ofList front, String.toList_inj.mp ?_⟩
        rw [cut, String.toList_append, String.toList_ofList]
        rfl
      rw [slashed_of_ends ends, cut]
      refine ⟨pathParts front, .inr ?_, pathParts_append front⟩
      have closed := pathParts_append front ""
      rw [String.append_empty] at closed
      exact closed
    | false =>
      rw [slashed_of_not_ends named ends]
      exact ⟨pathParts directory, .inl rfl, pathParts_append directory⟩

/-- A path that leads from a directory on, and never up. -/
def Below (directory path : String) : Prop :=
  ∃ rest, path = joinPath directory rest ∧ rest.startsWith '/' = false ∧ ".." ∉ pathParts rest

/-! ### Trees of files -/

namespace FileTree

/-- What lies in a directory, at any depth. -/
inductive Holds : FileTree → FileTree → Prop
  | entry {entries : List (String × FileTree)} {part : String} {t : FileTree} :
    entries.lookup part = some t → Holds (.directory entries) t
  | deeper {entries : List (String × FileTree)} {part : String} {t found : FileTree} :
    entries.lookup part = some t → Holds t found → Holds (.directory entries) found

/-- What a path leads to. -/
def leads (t : FileTree) (path : String) : Except FileFault FileTree :=
  follow [] (if path.startsWith '/' then .empty else t) (pathParts path)

theorem files_ok_iff {t : FileTree} {path : String} {bytes : List UInt8} :
    t.files path = .ok bytes ↔ t.leads path = .ok (.file bytes) := by
  unfold files leads
  cases follow [] (if path.startsWith '/' then empty else t) (pathParts path) with
  | error f => exact iff_of_false nofun nofun
  | ok found =>
    cases found with
    | file bytes' => exact ⟨fun h => by cases h; rfl, fun h => by cases h; rfl⟩
    | directory entries => exact iff_of_false nofun nofun

/-- A part leads from a directory to some place, whatever follows, or nowhere. A part that does not
lead up stays or goes to an entry. -/
theorem follow_step (above : List FileTree) (entries : List (String × FileTree)) (part : String) :
    (∃ above' t, (∀ rest, follow above (.directory entries) (part :: rest) = follow above' t rest) ∧
      (part ≠ ".." → t = .directory entries ∨ entries.lookup part = some t)) ∨
    ∀ rest, follow above (.directory entries) (part :: rest) = .error .missing := by
  cases dot : part == "" || part == "." with
  | true =>
    refine .inl ⟨above, .directory entries, fun rest => ?_, fun _ => .inl rfl⟩
    rw [follow.eq_def]
    dsimp only
    rw [if_pos dot]
  | false =>
    have named := ne_true_of_eq_false dot
    by_cases up : part = ".."
    · have leads := beq_iff_eq.mpr up
      cases above with
      | nil =>
        refine .inl ⟨[], .empty, fun rest => ?_, fun down => absurd up down⟩
        rw [follow, if_neg named, if_pos leads]
      | cons outer above =>
        refine .inl ⟨above, outer, fun rest => ?_, fun down => absurd up down⟩
        rw [follow, if_neg named, if_pos leads]
    · have down := mt beq_iff_eq.mp up
      cases there : entries.lookup part with
      | some inner =>
        refine .inl ⟨.directory entries :: above, inner, fun rest => ?_, fun _ => .inr rfl⟩
        rw [follow.eq_def]
        dsimp only
        rw [if_neg named, if_neg down, there]
      | none =>
        refine .inr fun rest => ?_
        rw [follow.eq_def]
        dsimp only
        rw [if_neg named, if_neg down, there]

/-- Parts that do not lead up lead to something in the directory, if they lead anywhere. -/
theorem follow_holds {above : List FileTree} {t found : FileTree} {parts : List String}
    (down : ".." ∉ parts) (followed : follow above t parts = .ok found) :
    found = t ∨ t.Holds found := by
  induction parts generalizing above t with
  | nil =>
    cases followed
    exact .inl rfl
  | cons part rest ih =>
    obtain ⟨here, later⟩ := not_or.mp (mt List.mem_cons.mpr down)
    cases t with
    | file bytes => cases followed
    | directory entries =>
      obtain ⟨above', t, leads, next⟩ | lost := follow_step above entries part
      · rw [leads] at followed
        have held := ih later followed
        obtain rfl | there := next (Ne.symm here)
        · exact held
        · obtain rfl | deeper := held
          · exact .inr (.entry there)
          · exact .inr (.deeper there deeper)
      · rw [lost] at followed
        cases followed

/-- Parts lead to some place, whatever follows, or nowhere. -/
theorem follow_append (above : List FileTree) (t : FileTree) (parts : List String) :
    (∃ above' d, ∀ rest, follow above t (parts ++ rest) = follow above' d rest) ∨
      ∃ f, ∀ rest, follow above t (parts ++ rest) = .error f := by
  induction parts generalizing above t with
  | nil => exact .inl ⟨above, t, fun _ => rfl⟩
  | cons part parts ih =>
    cases t with
    | file bytes => exact .inr ⟨.notDirectory, fun _ => rfl⟩
    | directory entries =>
      obtain ⟨above', t, leads, -⟩ | lost := follow_step above entries part
      · obtain ⟨above'', d, next⟩ | ⟨f, stops⟩ := ih above' t
        · exact .inl ⟨above'', d, fun rest => (leads _).trans (next rest)⟩
        · exact .inr ⟨f, fun rest => (leads _).trans (stops rest)⟩
      · exact .inr ⟨.missing, fun rest => lost _⟩

/-- A file below a directory lies in what the directory leads to. -/
theorem files_below {t : FileTree} {directory path : String} {bytes : List UInt8}
    (below : Below directory path) (read : t.files path = .ok bytes) :
    ∃ d, t.leads directory = .ok d ∧ d.Holds (.file bytes) := by
  obtain ⟨rest, rfl, relative, down⟩ := below
  obtain ⟨front, ends, parts⟩ := pathParts_slashed directory
  have found := files_ok_iff.mp read
  unfold leads at found ⊢
  rw [joinPath_relative directory relative, startsWith_slashed directory relative, parts] at found
  obtain ⟨above, d, next⟩ | ⟨f, stops⟩ :=
    follow_append [] (if directory.startsWith '/' then empty else t) front
  · rw [next] at found
    obtain ⟨part, others, cut⟩ := List.exists_cons_of_ne_nil (pathParts_ne_nil rest)
    cases d with
    | file bytes' =>
      rw [cut] at found
      cases found
    | directory entries =>
      refine ⟨.directory entries, ?_, (follow_holds down found).resolve_left nofun⟩
      obtain same | closed := ends
      · rw [same, ← List.append_nil front, next]
        rfl
      · rw [closed, next]
        rfl
  · rw [stops] at found
    cases found

end FileTree

/-! ### The loader -/

/-- Paths up to the first that has a text. -/
def Files.untilText (files : Files) : List String → List String
  | [] => []
  | path :: rest =>
    path :: if (files.readText path).toOption.isSome then [] else untilText files rest

theorem Files.untilText_subset (files : Files) (paths : List String) :
    files.untilText paths ⊆ paths := by
  induction paths with
  | nil => exact List.Subset.refl _
  | cons path rest ih =>
    unfold untilText
    refine List.cons_subset_cons path ?_
    split
    · exact List.nil_subset _
    · exact ih

/-- Only these paths have a say in which text is the first. -/
theorem Files.findSome?_untilText {files files' : Files} {paths : List String}
    (same : ∀ path ∈ files.untilText paths, files' path = files path) :
    (files.untilText paths).findSome? (fun path => (files'.readText path).toOption) =
      paths.findSome? (fun path => (files.readText path).toOption) ∧
    files'.untilText paths = files.untilText paths := by
  induction paths with
  | nil => exact ⟨rfl, rfl⟩
  | cons path rest ih =>
    unfold untilText at same ⊢
    have here : files'.readText path = files.readText path := by
      unfold readText
      rw [same path List.mem_cons_self]
    rw [List.findSome?_cons, List.findSome?_cons, here]
    cases text : (files.readText path).toOption with
    | some source => exact ⟨rfl, rfl⟩
    | none =>
      rw [text] at same
      obtain ⟨first, tried⟩ := ih fun p later => same p (List.mem_cons_of_mem _ later)
      exact ⟨first, congrArg (path :: ·) tried⟩

theorem Files.findSome?_untilText_self (files : Files) (paths : List String) :
    (files.untilText paths).findSome? (fun path => (files.readText path).toOption) =
      paths.findSome? fun path => (files.readText path).toOption :=
  (findSome?_untilText fun _ _ => rfl).1

namespace Surroundings

/-- The paths that the loader tries to read for a module, in their order. -/
def tried (s : Surroundings) (name : String) : List String :=
  if leadsOut name then []
  else match s.record.modulesDir with
    | none => []
    | some directory => s.files.untilText (moduleCandidates directory name)

/-- The source of a module depends on no other file. -/
theorem load_tried {s t : Surroundings} {name : String}
    (directory : t.record.modulesDir = s.record.modulesDir)
    (same : ∀ path ∈ s.tried name, t.files path = s.files path) :
    t.tried name = s.tried name ∧ t.load name = s.load name ∧
      s.load name = (s.tried name).findSome? fun path => (s.files.readText path).toOption := by
  unfold tried load at *
  rw [directory]
  split
  case isTrue => exact ⟨rfl, rfl, rfl⟩
  case isFalse safe =>
    rw [if_neg safe] at same
    cases kept : s.record.modulesDir with
    | none => exact ⟨rfl, rfl, rfl⟩
    | some directory =>
      rw [kept] at same
      obtain ⟨first, again⟩ := Files.findSome?_untilText same
      have own := s.files.findSome?_untilText_self (moduleCandidates directory name)
      have other := t.files.findSome?_untilText_self (moduleCandidates directory name)
      rw [again] at other
      exact ⟨again, other.symm.trans first, own.symm⟩

theorem tried_candidates {s : Surroundings} {name directory path : String}
    (kept : s.record.modulesDir = some directory) (asked : path ∈ s.tried name) :
    leadsOut name = false ∧ path ∈ moduleCandidates directory name := by
  unfold tried at asked
  split at asked
  case isTrue => cases asked
  case isFalse safe =>
    rw [kept] at asked
    exact ⟨Bool.eq_false_iff.mpr safe, Files.untilText_subset _ _ asked⟩

end Surroundings

theorem Files.bytes_of_text {files : Files} {path text : String}
    (read : (files.readText path).toOption = some text) :
    ∃ bytes, files path = .ok bytes ∧ Utf8.decode? bytes = some text := by
  unfold readText at read
  cases found : files path with
  | error f =>
    rw [found] at read
    cases read
  | ok bytes =>
    rw [found] at read
    dsimp only [bind, Except.bind] at read
    cases decoded : Utf8.decode? bytes with
    | none =>
      rw [decoded] at read
      cases read
    | some text' =>
      rw [decoded] at read
      cases read
      exact ⟨bytes, rfl, decoded⟩

theorem below_candidates {directory name path : String} (safe : leadsOut name = false)
    (relative : name.startsWith '/' = false) (candidate : path ∈ moduleCandidates directory name) :
    Below directory path := by
  obtain rfl | second := List.mem_cons.mp candidate
  · refine ⟨name ++ ".wren", rfl, ?_, dots_notMem_ended safe⟩
    by_cases named : name = ""
    · rw [named, String.empty_append]
      rfl
    · rw [startsWith_append named, relative]
  · rw [List.mem_singleton] at second
    have plain : "module.wren".startsWith '/' = false := by
      rw [String.startsWith_char_eq_head?]
      rfl
    refine ⟨joinPath name "module.wren", ?_, ?_, ?_⟩
    · rw [second, joinPath_assoc directory relative plain]
    · rw [joinPath_relative name plain, startsWith_slashed name plain, relative]
    · obtain ⟨front, ends, parts⟩ := pathParts_slashed name
      rw [joinPath_relative name plain, parts, List.mem_append]
      rintro (up | up)
      · refine dots_notMem_parts safe ?_
        obtain same | closed := ends
        · rw [same]
          exact up
        · rw [closed]
          exact List.mem_append_left _ up
      · revert up
        decide

/-- For every directory of modules, every name and whatever the files are. The source of a module is
the first text in the paths that are tried, and no other file has a say. They are tried only for a
name without two dots in a row, and are `<directory>/<name>.wren` and
`<directory>/<name>/module.wren`. For a name that does not start at the root of the system they lie
below the directory, and so does the file that is read, in any tree. For one that does, they are the
same for every directory. -/
theorem modules_looked_for (s : Surroundings) (name : String) :
    (∀ t : Surroundings, t.record.modulesDir = s.record.modulesDir →
      (∀ path ∈ s.tried name, t.files path = s.files path) →
      t.tried name = s.tried name ∧ t.load name = s.load name) ∧
    (s.load name = (s.tried name).findSome? fun path => (s.files.readText path).toOption) ∧
    (leadsOut name = true ∨ s.record.modulesDir = none → s.tried name = []) ∧
    ∀ directory, s.record.modulesDir = some directory →
      s.tried name ⊆ moduleCandidates directory name ∧
      (name.startsWith '/' = false →
        (∀ path ∈ s.tried name, Below directory path) ∧
        ∀ (tree : FileTree) (source : String), s.files = tree.files → s.load name = some source →
          ∃ d bytes, tree.leads directory = .ok d ∧ d.Holds (.file bytes) ∧
            Utf8.decode? bytes = some source) ∧
      (name.startsWith '/' = true →
        moduleCandidates directory name = [name ++ ".wren", joinPath name "module.wren"]) := by
  have own : s.load name = (s.tried name).findSome? fun path => (s.files.readText path).toOption :=
    (Surroundings.load_tried rfl fun _ _ => rfl).2.2
  refine ⟨fun t directory same => ?_, own, ?_, fun directory kept => ⟨?_, fun relative => ?_,
    fun absolute => ?_⟩⟩
  · obtain ⟨tried, load, -⟩ := Surroundings.load_tried directory same
    exact ⟨tried, load⟩
  · rintro (out | nowhere)
    · unfold Surroundings.tried
      rw [if_pos out]
    · unfold Surroundings.tried
      rw [nowhere, ite_self]
  · exact fun path asked => (Surroundings.tried_candidates kept asked).2
  · have below (path : String) (asked : path ∈ s.tried name) : Below directory path := by
      obtain ⟨safe, candidate⟩ := Surroundings.tried_candidates kept asked
      exact below_candidates safe relative candidate
    refine ⟨below, fun tree source files loaded => ?_⟩
    obtain ⟨path, asked, read⟩ := List.exists_of_findSome?_eq_some (own.symm.trans loaded)
    obtain ⟨bytes, found, decoded⟩ := Files.bytes_of_text read
    rw [files] at found
    obtain ⟨d, leads, held⟩ := FileTree.files_below (below path asked) found
    exact ⟨d, bytes, leads, held, decoded⟩
  · unfold moduleCandidates
    have named : name ≠ "" := by
      rintro rfl
      cases absolute
    rw [joinPath_absolute directory absolute, joinPath_absolute directory
      ((startsWith_append named ".wren" '/').trans absolute)]

/-- A script in a directory, and a file beside that directory. -/
def besideFiles : FileTree := .ofPaths
  [("lib/main.wren", some (Utf8.encode
      "import \"/proc/self/cwd/secret\" for Secret\nSystem.print(Secret)\n")),
    ("secret.wren", some (Utf8.encode "var Secret = \"outside\"\n"))]

/-- A machine whose modules are looked for in that directory. -/
def beside : Surroundings :=
  ⟨.empty, .fresh (some "lib"), besideFiles.files.atWork, none, []⟩

/-- A name that starts at the root of the system leads out of the directory of modules: the script
prints what the other file holds. -/
theorem absolute_names_lead_out :
    (Options.ofArguments ["lib/main.wren"]).toOption.bind Options.directory = some "lib" ∧
    beside.tried "/proc/self/cwd/secret" = ["/proc/self/cwd/secret.wren"] ∧
    beside.load "/proc/self/cwd/secret" = some "var Secret = \"outside\"\n" ∧
    ¬Below "lib" "/proc/self/cwd/secret.wren" ∧
    (Console.run ["lib/main.wren"] besideFiles.files []).text .out = "outside\n" := by
  refine ⟨by decide +kernel, by decide +kernel, by decide +kernel, ?_, by decide +kernel⟩
  rintro ⟨rest, path, relative, -⟩
  rw [joinPath_relative "lib" relative] at path
  have first := congrArg (·.startsWith '/') path
  rw [startsWith_slashed "lib" relative] at first
  revert first
  decide

end ScriptHost
