import EventManifest.CommandLine.Folder
import EventManifest.Proofs.KeyedTable
import EventManifest.Proofs.Outcome
import EventManifest.Proofs.Text.ByteOrder
import Mathlib.Data.List.Infix

/-!
What becomes of a folder when a file is written in it. Writing succeeds exactly where a path leads
to something that is no folder, made already or not. Then the file can be read under its path, every
other file can be read as before, and the folders are the same. A file that is put outside is not
kept, so nothing is said about reading it.
-/

namespace EventManifest

theorem FileError.decode_toUTF8 (s : String) : decode s.toUTF8.toList = .ok s := by
  have hBytes : (⟨s.toUTF8.toList.toArray⟩ : ByteArray) = s.toByteArray := by
    rw [ByteArray.toList, Text.loop_toList_eq_drop]
    rfl
  have hText : String.fromUTF8? s.toByteArray = some s :=
    dif_pos s.isValidUTF8
  rw [decode, hBytes, hText]

namespace Folder

variable {f g : Folder}

section Folders

/-- A path is that of a folder if it is empty, if it is entered as one, or if an entry lies in it.
Folders need not be entered one by one. -/
theorem hasFolder_iff {path : List String} :
    f.hasFolder path = true ↔
      path = [] ∨ ∃ entry ∈ f.entries, entry = (path, .folder) ∨
        path <+: entry.1 ∧ path.length < entry.1.length := by
  simp only [hasFolder, Bool.or_eq_true, List.isEmpty_iff, List.any_eq_true, Bool.and_eq_true,
    decide_eq_true_eq, List.isPrefixOf_iff_prefix, Prod.ext_iff]

/-- What lies above a folder is a folder, up to the root. -/
theorem hasFolder_of_isPrefix {path above : List String} (h : f.hasFolder path = true)
    (hAbove : above <+: path) : f.hasFolder above = true := by
  rw [hasFolder_iff] at h ⊢
  rcases h with rfl | ⟨entry, hEntry, hCase⟩
  · exact .inl (List.prefix_nil.mp hAbove)
  · by_cases hSame : above = path
    · subst hSame
      exact .inr ⟨entry, hEntry, hCase⟩
    have hShorter : above.length < path.length :=
      Nat.lt_of_le_of_ne hAbove.length_le fun hLength => hSame (hAbove.eq_of_length hLength)
    rcases hCase with rfl | ⟨hPrefix, hLength⟩
    · exact .inr ⟨_, hEntry, .inr ⟨hAbove, hShorter⟩⟩
    · exact .inr ⟨entry, hEntry, .inr ⟨hAbove.trans hPrefix, hShorter.trans hLength⟩⟩

/-- A file in a folder makes no folder and takes none away. Without its parent it would make
folders. -/
theorem hasFolder_put {target : List String} (hFile : f.hasFolder target = false)
    (hParent : f.hasFolder target.dropLast = true) (bytes : List UInt8) (path : List String) :
    (f.put (.inside target) bytes).hasFolder path = f.hasFolder path := by
  rw [Bool.eq_iff_iff]
  constructor
  · intro h
    rcases hasFolder_iff.mp h with rfl | ⟨entry, hEntry, hCase⟩
    · rfl
    rcases List.mem_append.mp hEntry with hOld | hNew
    · exact hasFolder_iff.mpr (.inr ⟨entry, List.mem_of_mem_filter hOld, hCase⟩)
    · cases List.mem_singleton.mp hNew
      rcases hCase with hFolder | ⟨hPrefix, hLength⟩
      · cases hFolder
      · refine hasFolder_of_isPrefix hParent ?_
        rw [List.dropLast_eq_take]
        exact List.prefix_take_iff.mpr ⟨hPrefix, by dsimp only at hLength; omega⟩
  · intro h
    rcases hasFolder_iff.mp h with rfl | ⟨entry, hEntry, hCase⟩
    · rfl
    by_cases hTarget : entry.1 = target
    · rcases hCase with rfl | hBelow
      · -- an entry that made the target a folder would have stopped the file
        have hFolder : f.hasFolder target = true :=
          hTarget ▸ hasFolder_iff.mpr (.inr ⟨_, hEntry, .inl rfl⟩)
        cases hFile.symm.trans hFolder
      · rw [hTarget] at hBelow
        exact hasFolder_iff.mpr (.inr ⟨(target, .file bytes),
          List.mem_append_right _ (List.mem_singleton_self _), .inr hBelow⟩)
    · exact hasFolder_iff.mpr (.inr ⟨entry,
        List.mem_append_left _ (List.mem_filter.mpr ⟨hEntry, by simpa using hTarget⟩), hCase⟩)

theorem lookup_filter_ne (entries : List (List String × FileEntry)) (target path : List String) :
    (entries.filter fun entry => entry.1 ≠ target).lookup path =
      if path = target then none else entries.lookup path := by
  induction entries with
  | nil => simp
  | cons entry entries ih =>
      by_cases hTarget : entry.1 = target
      · rw [List.filter_cons_of_neg (by simpa using hTarget), ih, KeyedTable.lookup_cons_eq_ite,
          hTarget]
        by_cases hPath : path = target <;> simp [hPath]
      · rw [List.filter_cons_of_pos (by simpa using hTarget), KeyedTable.lookup_cons_eq_ite, ih,
          KeyedTable.lookup_cons_eq_ite]
        by_cases hPath : path = target
        · simp [hPath, Ne.symm hTarget]
        · simp [hPath]

/-- A file takes the place of what was there, and all else stays. The bytes that were there before
are gone. -/
theorem entry?_put (f : Folder) (target : List String) (bytes : List UInt8) (path : List String) :
    entry? (f.put (.inside target) bytes) path =
      if path = target then some (.file bytes) else f.entry? path := by
  have hEntries : entry? (f.put (.inside target) bytes) path = List.lookup path
      ((f.entries.filter fun entry => entry.1 ≠ target) ++ [(target, FileEntry.file bytes)]) :=
    rfl
  rw [hEntries, List.lookup_append, lookup_filter_ne, KeyedTable.lookup_cons_eq_ite]
  by_cases hPath : path = target
  · simp [hPath]
  · simp [hPath, entry?]

end Folders

section Walking

variable {start place : Place} {part name : String} {parts : List String}

theorem requireFolder_eq_ok_iff : f.requireFolder place = .ok () ↔ f.isFolder place = true := by
  rw [requireFolder]
  cases f.isFolder place with
  | true => simp
  | false => cases (f.file? place).isSome <;> simp

/-- One part of a path is looked up in a folder. A file on the way is refused, even if the path
leads back out of it. -/
theorem walk_cons_eq_ok_iff :
    f.walk start (part :: parts) = .ok place ↔
      f.isFolder start = true ∧
        ∃ next, start.enter part = .ok next ∧ f.walk next parts = .ok place := by
  rw [walk, Outcome.bind_eq_ok_iff, ← requireFolder_eq_ok_iff]
  simp only [Outcome.bind_eq_ok_iff]
  constructor
  · rintro ⟨_, hFolder, hRest⟩
    exact ⟨hFolder, hRest⟩
  · rintro ⟨hFolder, hRest⟩
    exact ⟨(), hFolder, hRest⟩

/-- The last part of a path is looked up in the folder to which the others lead. Nothing is asked of
what stands under it. -/
theorem walk_append_eq_ok_iff :
    f.walk start (parts ++ [name]) = .ok place ↔
      ∃ folder, f.walk start parts = .ok folder ∧ f.isFolder folder = true ∧
        folder.enter name = .ok place := by
  induction parts generalizing start with
  | nil =>
      rw [List.nil_append, walk_cons_eq_ok_iff]
      simp [walk]
  | cons part parts ih =>
      rw [List.cons_append, walk_cons_eq_ok_iff]
      simp only [walk_cons_eq_ok_iff, ih]
      constructor
      · rintro ⟨hStart, next, hNext, folder, hWalk, hEnter⟩
        exact ⟨folder, ⟨hStart, next, hNext, hWalk⟩, hEnter⟩
      · rintro ⟨folder, ⟨hStart, next, hNext, hWalk⟩, hEnter⟩
        exact ⟨hStart, next, hNext, folder, hWalk, hEnter⟩

/-- Where a path leads depends on the folders alone, not on what files there are. So writing a file
does not redirect a path. -/
theorem walk_eq_ok_iff_of_isFolder (h : ∀ place, g.isFolder place = f.isFolder place) :
    g.walk start parts = .ok place ↔ f.walk start parts = .ok place := by
  induction parts generalizing start with
  | nil => exact Iff.rfl
  | cons part parts ih => simp only [walk_cons_eq_ok_iff, h, ih]

theorem locate_eq_ok_iff_of_isFolder (h : ∀ place, g.isFolder place = f.isFolder place)
    {path : String} : g.locate path = .ok place ↔ f.locate path = .ok place := by
  simp only [locate, Outcome.bind_eq_ok_iff, walk_eq_ok_iff_of_isFolder h]

/-- A path that leads from a folder to what is no folder ends in a name within the folder. Steps up
and steps in place end at folders. -/
theorem eq_child_of_enter {folder : Place} (hFolder : f.isFolder folder = true)
    (hEnter : folder.enter name = .ok place) (hFile : f.isFolder place = false) :
    place = folder.child name := by
  rw [Place.enter] at hEnter
  split at hEnter
  · cases hEnter
    cases hFolder.symm.trans hFile
  split at hEnter
  · -- two dots lead to a folder again
    cases hEnter
    have hBack : f.isFolder folder.back = true := by
      cases folder with
      | inside path =>
          cases path with
          | nil => rfl
          | cons part rest => exact hasFolder_of_isPrefix hFolder (List.dropLast_prefix _)
      | above => rfl
      | elsewhere => rfl
    cases hBack.symm.trans hFile
  split at hEnter
  · cases hEnter
  · exact (Except.ok.inj hEnter).symm

end Walking

section Paths

theorem splitPath_ne_nil (part : List Char) (text : List Char) : splitPath part text ≠ [] := by
  fun_induction splitPath part text with
  | case1 => exact List.cons_ne_nil _ _
  | case2 => exact List.cons_ne_nil _ _
  | case3 _ _ _ _ ih => exact ih

/-- A path has a last part, which is empty if the path ends with a slash. An empty path has no parts
at all and is refused. -/
theorem exists_eq_append_of_pathParts {path : String} {start : Place} {parts : List String}
    (h : pathParts path = .ok (start, parts)) : ∃ init last, parts = init ++ [last] := by
  have hSome : parts ≠ [] := by
    rw [pathParts] at h
    split at h
    · cases h
    split at h
    · cases h
    · cases h
      exact splitPath_ne_nil _ _
    · cases h
      exact splitPath_ne_nil _ _
  exact ⟨parts.dropLast, parts.getLast hSome, (List.dropLast_append_getLast hSome).symm⟩

theorem splitLast_of_isEmpty_eq_false {last : String} (h : last.isEmpty = false)
    (init : List String) : splitLast (init ++ [last]) = ⟨init, last, false⟩ := by
  simp [splitLast, h]

theorem slashed_of_isEmpty {last : String} (h : last.isEmpty = true) (init : List String) :
    (splitLast (init ++ [last])).slashed = true := by
  have hLength := (List.dropWhile_suffix String.isEmpty (l := init.reverse)).length_le
  simp only [splitLast, List.reverse_append, List.reverse_cons, List.reverse_nil, List.nil_append,
    List.cons_append, List.dropWhile_cons, h, if_true, List.length_reverse, List.length_append,
    List.length_cons, List.length_nil, decide_eq_true_eq]
  rw [List.length_reverse] at hLength
  omega

end Paths

/-- Reading succeeds exactly where a path leads to a file. -/
theorem read_eq_ok_iff {path : String} {bytes : List UInt8} :
    f.read path = .ok bytes ↔
      ∃ place, f.locate path = .ok place ∧ f.isFolder place = false ∧
        f.file? place = some bytes := by
  rw [read, Outcome.bind_eq_ok_iff]
  refine exists_congr fun place => and_congr_right fun _ => ?_
  cases f.isFolder place with
  | true => simp
  | false => cases f.file? place <;> simp

/-- Writing succeeds exactly where a path leads to what is no folder. There need not be a file
yet. -/
theorem write_eq_ok_iff {path : String} {bytes : List UInt8} :
    f.write path bytes = .ok g ↔
      ∃ place, f.locate path = .ok place ∧ f.isFolder place = false ∧ f.put place bytes = g := by
  rw [write, locate]
  cases hParts : pathParts path with
  | error e => simp [bind, Except.bind]
  | ok split =>
      obtain ⟨start, parts⟩ := split
      obtain ⟨init, last, rfl⟩ := exists_eq_append_of_pathParts hParts
      have hLocate : (Except.ok (start, init ++ [last]) >>= fun x => f.walk x.1 x.2) =
        f.walk start (init ++ [last]) := rfl
      simp only [hLocate, walk_append_eq_ok_iff, Outcome.bind_eq_ok_iff, Except.ok.injEq,
        exists_eq_left']
      have hPut (place : Place) :
          (if f.isFolder place = true then Except.error FileError.isDirectory
            else Except.ok (f.put place bytes)) = .ok g ↔
            f.isFolder place = false ∧ f.put place bytes = g := by
        cases f.isFolder place <;> simp
      cases hLast : last.isEmpty with
      | false =>
          simp only [splitLast_of_isEmpty_eq_false hLast, Bool.false_eq_true, if_false,
            Outcome.bind_eq_ok_iff, hPut]
          constructor
          · rintro ⟨folder, hWalk, _, hFolder, place, hEnter, hRest⟩
            exact ⟨place, ⟨folder, hWalk, requireFolder_eq_ok_iff.mp hFolder, hEnter⟩, hRest⟩
          · rintro ⟨place, ⟨folder, hWalk, hFolder, hEnter⟩, hRest⟩
            exact ⟨folder, hWalk, (), requireFolder_eq_ok_iff.mpr hFolder, place, hEnter, hRest⟩
      | true =>
          -- behind a slash the path leads to a folder, where it leads anywhere
          simp only [slashed_of_isEmpty hLast, if_true]
          constructor
          · rintro ⟨_, _, _, _, hRefused⟩
            cases hRefused
          · rintro ⟨place, ⟨folder, _, hFolder, hEnter⟩, hFile, _⟩
            rw [Place.enter, hLast, Bool.true_or, if_pos rfl] at hEnter
            cases hEnter
            cases hFolder.symm.trans hFile

/-- A folder after a file was written under a path. -/
inductive Receives (f : Folder) (path : String) (bytes : List UInt8) : Folder → Prop where
  /-- The file is there, every other entry is as before, and so is the reading of every path that
  leads elsewhere. -/
  | inside {g : Folder} {target : List String} (hPlace : f.locate path = .ok (.inside target))
      (hRead : g.read path = .ok bytes)
      (hEntry : ∀ p, g.entry? p = if p = target then some (.file bytes) else f.entry? p)
      (hFolders : ∀ p, g.hasFolder p = f.hasFolder p)
      (hOthers : ∀ other content, f.locate other ≠ .ok (.inside target) →
        (g.read other = .ok content ↔ f.read other = .ok content)) :
      Receives f path bytes g
  /-- What lies outside is not held. -/
  | outside (hPlace : f.locate path = .ok .elsewhere) : Receives f path bytes f

section Receives

variable {path : String} {bytes : List UInt8} {target : List String}
  (h : f.Receives path bytes g) (hPlace : f.locate path = .ok (.inside target))

include h hPlace

/-- The file is read back under the path by which it was written. -/
theorem Receives.read_eq : g.read path = .ok bytes := by
  cases h with
  | inside _ hRead _ _ _ => exact hRead
  | outside hElsewhere => cases hPlace.symm.trans hElsewhere

/-- A file that another path leads to is read as before. Different paths may lead to one place,
which is why places are compared. -/
theorem Receives.read_eq_of_locate_ne {other : String} {content : List UInt8}
    (hApart : f.locate other ≠ f.locate path) (hOther : f.read other = .ok content) :
    g.read other = .ok content := by
  cases h with
  | inside hSame _ _ _ hOthers => exact (hOthers other content (hSame ▸ hApart)).mpr hOther
  | outside hElsewhere => cases hPlace.symm.trans hElsewhere

end Receives

/-- The folder in which a file is to be written exists. Writing makes no folders. -/
theorem hasFolder_dropLast_of_locate {path : String} {target : List String}
    (hPlace : f.locate path = .ok (.inside target)) (hFile : f.hasFolder target = false) :
    f.hasFolder target.dropLast = true := by
  obtain ⟨⟨start, parts⟩, hParts, hWalk⟩ := Outcome.bind_eq_ok_iff.mp hPlace
  obtain ⟨init, last, rfl⟩ := exists_eq_append_of_pathParts hParts
  obtain ⟨folder, _, hFolder, hEnter⟩ := walk_append_eq_ok_iff.mp hWalk
  have hChild := eq_child_of_enter hFolder hEnter hFile
  cases folder with
  | inside parent =>
      cases hChild
      rw [List.dropLast_concat]
      exact hFolder
  | above => cases hChild
  | elsewhere => cases hChild

/-- What was written is read back, and nothing else has changed. Places outside of the folder are
written without a trace in it. -/
theorem receives_of_write {path : String} {bytes : List UInt8}
    (h : f.write path bytes = .ok g) : f.Receives path bytes g := by
  obtain ⟨place, hPlace, hFile, rfl⟩ := write_eq_ok_iff.mp h
  cases place with
  | above => cases hFile
  | elsewhere => exact .outside hPlace
  | inside target =>
      have hFolders := hasFolder_put hFile (hasFolder_dropLast_of_locate hPlace hFile) bytes
      have hEntry := entry?_put f target bytes
      have hIsFolder (place : Place) :
          (f.put (.inside target) bytes).isFolder place = f.isFolder place := by
        cases place with
        | inside p => exact hFolders p
        | above => rfl
        | elsewhere => rfl
      refine .inside hPlace (read_eq_ok_iff.mpr ⟨.inside target, ?_, ?_, ?_⟩) hEntry hFolders ?_
      · exact (locate_eq_ok_iff_of_isFolder hIsFolder).mpr hPlace
      · rw [hIsFolder]
        exact hFile
      · rw [file?, hEntry, if_pos rfl]
      · intro other content hElsewhere
        simp only [read_eq_ok_iff, locate_eq_ok_iff_of_isFolder hIsFolder, hIsFolder]
        refine exists_congr fun place => and_congr_right fun hOther => and_congr_right fun _ => ?_
        cases place with
        | inside p =>
            have hApart : p ≠ target := by
              rintro rfl
              exact hElsewhere hOther
            rw [file?, file?, hEntry, if_neg hApart]
        | above => exact Iff.rfl
        | elsewhere => exact Iff.rfl

/-- A text cannot be written only if its path leads nowhere or to a folder. There is no other
reason, such as a lack of space. -/
theorem forall_isFolder_of_write {path : String} {bytes : List UInt8} {e : FileError}
    (h : f.write path bytes = .error e) :
    ∀ place, f.locate path = .ok place → f.isFolder place = true := by
  intro place hPlace
  cases hFolder : f.isFolder place with
  | true => rfl
  | false => cases (write_eq_ok_iff.mpr ⟨place, hPlace, hFolder, rfl⟩).symm.trans h

end Folder

end EventManifest
