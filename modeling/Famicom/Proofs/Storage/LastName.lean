import Mathlib.Data.List.Basic
import Famicom.Cartridge.Save
import Famicom.Proofs.Transition
import Famicom.Storage.Disk

/-!
# The last name of a path

The last component of a path is the name under which what it leads to stands on a disk: it does not
matter what stands before it, nor which blank segments stand after it. The save of an image is named
by its last component too, so it can only be the image itself if their names are the same, which
takes the extension of saves.

## Main definitions

* `Path.HasLastName` — a path ends with a name

## Main results

* `Persistence.hasLastName_pathFor` — the name of a save
* `Disk.getLast?_of_locate` — where a path leads, its last name stands last
* `Disk.extension_of_locate_eq` — an image that is its own save has the extension of saves
-/

namespace Famicom

/-! ### Paths -/

namespace Path

/-- A name that a component can have, and that leads on to an entry of its own. -/
structure IsName (name : List Char) : Prop where
  nonempty : name ≠ []
  ne_current : name ≠ ['.']
  ne_parent : name ≠ ['.', '.']
  whole : '/' ∉ name

theorem IsName.of_length {name : List Char} (long : 3 ≤ name.length) (whole : '/' ∉ name) :
    IsName name := by
  refine ⟨?_, ?_, ?_, whole⟩ <;>
    · rintro rfl
      exact absurd long (by decide)

theorem splitOn_append_cons (separator : Char) (first rest : List Char) :
    (first ++ separator :: rest).splitOn separator =
      first.splitOn separator ++ rest.splitOn separator := by
  simp only [List.splitOn_eq_splitOnP]
  exact List.splitOnP_append_cons _ _ (beq_self_eq_true separator)

/-- No piece of a text contains what the text was split at. -/
theorem separator_notMem {separator : Char} (text : List Char) :
    ∀ piece ∈ text.splitOn separator, separator ∉ piece := by
  -- By length: what stands behind the first separator is a shorter text.
  induction count : text.length using Nat.strongRecOn generalizing text with
  | ind n ih =>
    intro piece member
    by_cases splits : separator ∈ text
    · obtain ⟨first, rest, rfl, whole⟩ := List.eq_append_cons_of_mem splits
      rw [splitOn_append_cons, List.splitOn_eq_singleton whole] at member
      rcases List.mem_append.mp member with here | later
      · exact List.mem_singleton.mp here ▸ whole
      · have shorter : rest.length < n := by
          rw [← count, List.length_append, List.length_cons]
          omega
        exact ih _ shorter rest rfl piece later
    · rw [List.splitOn_eq_singleton splits] at member
      exact List.mem_singleton.mp member ▸ splits

/-- What is dropped is blank, and what is left does not begin with a blank segment. -/
theorem dropBlanks_spec (segments : List (List Char)) :
    (∃ blanks, segments = blanks ++ dropBlanks segments ∧
      ∀ blank ∈ blanks, blank = [] ∨ blank = ['.']) ∧
    ∀ last before, dropBlanks segments = last :: before → isBlank before last = false := by
  induction segments with
  | nil => exact ⟨⟨[], rfl, fun _ member => nomatch member⟩, fun _ _ left => nomatch left⟩
  | cons segment before ih =>
    by_cases blank : isBlank before segment = true
    · rw [dropBlanks, if_pos blank]
      obtain ⟨⟨blanks, split, all_blank⟩, left⟩ := ih
      have segment_blank : segment = [] ∨ segment = ['.'] := by
        simp only [isBlank, Bool.or_eq_true, List.isEmpty_iff, Bool.and_eq_true,
          beq_iff_eq] at blank
        exact blank.imp_right (·.1)
      refine ⟨⟨segment :: blanks, congrArg (segment :: ·) split, ?_⟩, left⟩
      intro other member
      rcases List.mem_cons.mp member with rfl | later
      · exact segment_blank
      · exact all_blank other later
    · rw [dropBlanks, if_neg blank]
      refine ⟨⟨[], rfl, fun _ member => nomatch member⟩, ?_⟩
      intro last rest same
      obtain ⟨rfl, rfl⟩ := List.cons.inj same
      exact Bool.eq_false_iff.mpr blank

/-- A path ends with a name, blank segments apart. -/
structure HasLastName (path name : String) : Prop where
  isName : IsName name.toList
  ends : ∃ front blanks, segments path = front ++ name.toList :: blanks ∧
    ∀ blank ∈ blanks, blank = [] ∨ blank = ['.']

theorem HasLastName.of_fileName? {path name : String} (named : fileName? path = some name) :
    HasLastName path name := by
  obtain ⟨⟨blanks, split, all_blank⟩, left⟩ := dropBlanks_spec (segments path).reverse
  unfold fileName? splitLast? at named
  cases dropped : dropBlanks (segments path).reverse with
  | nil => simp [dropped] at named
  | cons last before =>
    have solid := left last before dropped
    rw [dropped] at named split
    simp only [Option.bind_eq_bind, Option.bind_some] at named
    split at named
    · cases named
    · rename_i ordinary
      simp only [Bool.or_eq_true, decide_eq_true_eq, Bool.and_eq_true, not_or, not_and]
        at ordinary
      obtain rfl := Option.some.inj named
      have order : segments path = before.reverse ++ last :: blanks.reverse := by
        rw [← List.reverse_reverse (segments path), split]
        simp
      have name : (String.ofList last).toList = last := String.toList_ofList
      refine ⟨name.symm ▸ ⟨?_, ?_, ?_, ?_⟩, before.reverse, blanks.reverse, name.symm ▸ order, ?_⟩
      · rintro rfl
        cases solid
      · rintro rfl
        have first : before.isEmpty = false := Bool.eq_false_iff.mpr (ordinary.2 rfl)
        simp [isBlank, first] at solid
      · exact ordinary.1
      · apply separator_notMem path.toList last
        rw [← segments, order]
        simp
      · intro blank member
        exact all_blank blank (List.mem_reverse.mp member)

/-- A path below a directory ends with what was put there. -/
theorem HasLastName.join (directory : String) {name : String} (isName : IsName name.toList) :
    HasLastName (Path.join directory name) name := by
  have alone : name.toList.splitOn '/' = [name.toList] := List.splitOn_eq_singleton isName.whole
  have below (front : List Char) :
      (front ++ '/' :: name.toList).splitOn '/' = front.splitOn '/' ++ name.toList :: [] := by
    rw [splitOn_append_cons, alone]
  have relative : isAbsolute name = false := by
    unfold isAbsolute
    cases chars : name.toList with
    | nil => rfl
    | cons first rest =>
      have inside : first ∈ name.toList := by
        rw [chars]
        exact List.mem_cons_self ..
      have plain : first ≠ '/' := fun slash => isName.whole (slash ▸ inside)
      simpa using plain
  have no_blanks : ∀ blank ∈ ([] : List (List Char)), blank = [] ∨ blank = ['.'] := by
    intro blank member
    cases member
  refine ⟨isName, ?_⟩
  unfold Path.join segments
  rw [relative]
  simp only [Bool.false_eq_true, if_false]
  split_ifs with plain
  · -- Nothing is put between if the directory is empty or ends with a separator.
    rw [String.toList_append]
    rcases Bool.or_eq_true _ _ ▸ plain with empty | slash
    · have nothing : directory.toList = [] := by
        rw [String.isEmpty_iff.mp empty]
        rfl
      exact ⟨[], [], by rw [nothing]; exact alone, no_blanks⟩
    · obtain ⟨front, split⟩ := List.getLast?_eq_some_iff.mp (beq_iff_eq.mp slash)
      refine ⟨front.splitOn '/', [], ?_, no_blanks⟩
      rw [split, List.append_assoc]
      exact below front
  · refine ⟨directory.toList.splitOn '/', [], ?_, no_blanks⟩
    simpa using below directory.toList

/-- A name without its extension is made of the same characters. -/
theorem withoutExtension_subset (name : List Char) : withoutExtension name ⊆ name := by
  intro c member
  unfold withoutExtension at member
  split at member
  · exact member
  · exact member
  · rename_i first stem left
    have dropped : c ∈ name.reverse.dropWhile (· != '.') := by
      rw [left]
      exact List.mem_cons_of_mem _ (List.mem_reverse.mp member)
    exact List.mem_reverse.mp (List.dropWhile_subset _ dropped)

end Path

/-! ### Saves -/

namespace Persistence

/-- The save of an image with a name is named after it. -/
theorem hasLastName_pathFor {image name : String} (named : Path.fileName? image = some name)
    (directory : Option String) :
    Path.HasLastName (pathFor image directory)
      (String.ofList (Path.withoutExtension name.toList) ++ extension) := by
  have isName := (Path.HasLastName.of_fileName? named).isName
  have stem : Path.stem? image = some (String.ofList (Path.withoutExtension name.toList)) := by
    rw [Path.stem?, named, Option.map_some]
  unfold pathFor
  rw [stem, Option.getD_some]
  apply Path.HasLastName.join
  have chars : (String.ofList (Path.withoutExtension name.toList) ++ extension).toList =
      Path.withoutExtension name.toList ++ ['.', 's', 'a', 'v'] := by
    rw [String.toList_append, String.toList_ofList]
    rfl
  rw [chars]
  have long : 3 ≤ (Path.withoutExtension name.toList ++ ['.', 's', 'a', 'v']).length := by
    rw [List.length_append]
    exact Nat.le_trans (by decide) (Nat.le_add_left ..)
  refine .of_length long fun slash => ?_
  rcases List.mem_append.mp slash with inside | inside
  · exact isName.whole (Path.withoutExtension_subset _ inside)
  · exact absurd inside (by decide)

end Persistence

/-! ### Disks -/

namespace Disk

variable {d : Disk}

theorem eq_of_descend_blank {start next : Location} {component : String}
    (blank : component = "" ∨ component = ".") (moved : d.descend start component = .ok next) :
    next = start := by
  unfold descend at moved
  split at moved
  · cases moved
  · cases moved
  · have stays : (component = "" || component = ".") = true := by simpa using blank
    rw [if_pos stays] at moved
    exact (Except.ok.inj moved).symm

theorem eq_of_descend_name {start next : Location} {component : String}
    (isName : Path.IsName component.toList) (moved : d.descend start component = .ok next) :
    next = start ++ [component] := by
  have ordinary : ¬ (component = "" || component = ".") = true := by
    simp only [Bool.or_eq_true, decide_eq_true_eq]
    rintro (rfl | rfl)
    · exact isName.nonempty rfl
    · exact isName.ne_current rfl
  have below : component ≠ ".." := by
    rintro rfl
    exact isName.ne_parent rfl
  unfold descend at moved
  split at moved
  · cases moved
  · cases moved
  · rw [if_neg ordinary, if_neg below] at moved
    split at moved
    · cases moved
    · exact (Except.ok.inj moved).symm

/-- Blank components lead nowhere. -/
theorem eq_of_descend_blanks {blanks : List (List Char)}
    (all_blank : ∀ blank ∈ blanks, blank = [] ∨ blank = ['.']) {start location : Location}
    (walked : (blanks.map String.ofList).foldlM d.descend start = .ok location) :
    location = start := by
  induction blanks generalizing start with
  | nil => exact (foldlM_nil_eq_ok.mp walked).symm
  | cons blank blanks ih =>
    obtain ⟨next, moved, rest⟩ := foldlM_cons_eq_ok.mp walked
    have blank_name : String.ofList blank = "" ∨ String.ofList blank = "." := by
      rcases all_blank blank (List.mem_cons_self ..) with rfl | rfl
      · exact .inl rfl
      · exact .inr rfl
    obtain rfl := eq_of_descend_blank blank_name moved
    exact ih (fun other member => all_blank other (List.mem_cons_of_mem _ member)) rest

/-- Where a path leads, its last name stands last. -/
theorem getLast?_of_locate {path name : String} (named : Path.HasLastName path name)
    {location : Location} (leads : d.locate path = .ok location) :
    location.getLast? = some name := by
  obtain ⟨isName, front, blanks, split, all_blank⟩ := named
  unfold locate at leads
  split_ifs at leads
  unfold route at leads
  dsimp only at leads
  rw [split, List.map_append, List.map_cons, foldlM_append_eq_ok] at leads
  -- Up to the name the walk may go anywhere, and after it nowhere.
  obtain ⟨before, -, walked⟩ := leads
  obtain ⟨here, moved, walked⟩ := foldlM_cons_eq_ok.mp walked
  rw [String.ofList_toList] at moved
  obtain rfl := eq_of_descend_name isName moved
  rw [eq_of_descend_blanks all_blank walked, List.getLast?_concat]

/-- An image that is its own save has the extension of saves. -/
theorem extension_of_locate_eq {image name : String} {directory : Option String}
    (named : Path.fileName? image = some name) {location : Location}
    (leads : d.locate image = .ok location)
    (same : d.locate (Persistence.pathFor image directory) = .ok location) :
    ∃ stem, name = stem ++ Persistence.extension := by
  have last := getLast?_of_locate (.of_fileName? named) leads
  have last' := getLast?_of_locate (Persistence.hasLastName_pathFor named directory) same
  exact ⟨_, Option.some.inj (last.symm.trans last')⟩

end Disk

end Famicom
