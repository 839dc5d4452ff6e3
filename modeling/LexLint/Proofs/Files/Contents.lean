import LexLint.Files.Tree

/-!
# What files hold

A file that is written where a file can stand changes nothing but what is at its place
(`node?_store_of_ne`). So every way through the tree stays open (`walk_store`), the path leads to
what was written (`Writable.read_store`), and another path still leads to what it led to
(`read_store_of_ne`) and can still be written (`Writable.store`).
-/

namespace LexLint.FileTree

variable {t : FileTree} {place other parent : List String} {path name last : String}
  {octets : List UInt8}

/-- A file can stand at a place: in a directory, and not where there is a directory. -/
structure HasRoom (t : FileTree) (place : List String) : Prop where
  parent : t.isDirectory place.dropLast = true
  free : t.isDirectory place = false

theorem isDirectory_iff : t.isDirectory place = true ↔ t.node? place = some .directory :=
  beq_iff_eq

/-- A place is on the way to the working directory or to something else. -/
def leads (t : FileTree) (place : List String) : Bool :=
  place.isPrefixOf t.directory || t.nodes.any (fun n => place.isPrefixOf n.1)

theorem node?_eq (t : FileTree) (place : List String) :
    t.node? place = ((t.nodes.find? (·.1 == place)).map (·.2)).or
      (if t.leads place then some .directory else none) := by
  rw [node?, leads]
  split <;> simp [*]

/-- What is above a directory leads somewhere. -/
theorem leads_of_isDirectory (h : t.isDirectory place = true) (above : other <+: place) :
    t.leads other = true := by
  rw [isDirectory_iff, node?] at h
  simp only [leads, Bool.or_eq_true, List.any_eq_true, List.isPrefixOf_iff_prefix] at h ⊢
  split at h
  · rename_i found
    have key := List.find?_some found
    rw [beq_iff_eq] at key
    exact .inr ⟨_, List.mem_of_find?_eq_some found, key ▸ above⟩
  · split at h
    · rename_i leads
      rcases leads with directory | ⟨n, member, below⟩
      · exact .inl (above.trans directory)
      · exact .inr ⟨n, member, above.trans below⟩
    · cases h

/-- What is stored in a directory leads nowhere that the directory does not. -/
theorem leads_store (node : FileNode) (parent : t.isDirectory place.dropLast = true)
    (ne : other ≠ place) : (t.store place node).leads other = t.leads other := by
  -- Above the place are only directories that were there, and elsewhere nothing new is below.
  by_cases above : other <+: place
  · have inParent : other <+: place.dropLast := by
      rcases List.eq_nil_or_concat place with rfl | ⟨front, last, rfl⟩
      · exact above
      · rw [List.concat_eq_append] at above ne ⊢
        rw [List.dropLast_concat]
        exact (List.prefix_concat_iff.mp above).resolve_left ne
    rw [leads_of_isDirectory parent inParent]
    simp [leads, store, List.isPrefixOf_iff_prefix.mpr above]
  · have apart : other.isPrefixOf place = false :=
      Bool.eq_false_iff.mpr (mt List.isPrefixOf_iff_prefix.mp above)
    have key (n : List String × FileNode) :
        (n.1 != place && other.isPrefixOf n.1) = other.isPrefixOf n.1 := by
      by_cases same : n.1 = place <;> simp [same, apart]
    simp only [leads, store, List.any_append, List.any_filter, key, List.any_cons, List.any_nil,
      apart, Bool.or_false]

/-- Storing a node in a directory changes nothing at other places. -/
theorem node?_store_of_ne (node : FileNode) (parent : t.isDirectory place.dropLast = true)
    (ne : other ≠ place) : (t.store place node).node? other = t.node? other := by
  have found : (t.store place node).nodes.find? (·.1 == other) =
      t.nodes.find? (·.1 == other) := by
    have last : [(place, node)].find? (·.1 == other) = none := by
      simp [ne.symm]
    rw [store, List.find?_append, List.find?_filter, last, Option.or_none]
    congr 1
    funext n
    by_cases same : n.1 = other <;> simp [same, ne]
  rw [node?_eq, node?_eq, found, leads_store node parent ne]

/-- Storing anew at a place leaves nothing of what was stored there. -/
theorem store_store (t : FileTree) (place : List String) (node other : FileNode) :
    (t.store place node).store place other = t.store place other := by
  simp [store, List.filter_append, List.filter_filter]

/-! ### Ways through a tree -/

theorem isDirectory_store (room : t.HasRoom place) (octets : List UInt8) (other : List String) :
    (t.store place (.file octets)).isDirectory other = t.isDirectory other := by
  by_cases same : other = place
  · rw [same, room.free, isDirectory, node?_store_self]
    rfl
  · rw [isDirectory, isDirectory, node?_store_of_ne _ room.parent same]

theorem isSome_node?_store (room : t.HasRoom place) (octets : List UInt8)
    (found : (t.node? other).isSome = true) :
    ((t.store place (.file octets)).node? other).isSome = true := by
  by_cases same : other = place
  · rw [same, node?_store_self]
    rfl
  · rwa [node?_store_of_ne _ room.parent same]

theorem enter_store (room : t.HasRoom place) (octets : List UInt8)
    (entered : t.enter parent name = .ok other) :
    (t.store place (.file octets)).enter parent name = .ok other := by
  unfold enter at entered ⊢
  rw [isDirectory_store room]
  split at entered
  · cases entered
  · rename_i directory
    rw [if_neg directory]
    split at entered
    · rename_i stay
      rwa [if_pos stay]
    · rename_i moves
      rw [if_neg moves]
      split at entered
      · rename_i up
        rwa [if_pos up]
      · rename_i down
        rw [if_neg down]
        split at entered
        · cases entered
        · rename_i short
          rw [if_neg short]
          split at entered
          · rename_i found
            rwa [if_pos (isSome_node?_store room octets found)]
          · cases entered

/-- Every way through a tree stays open. -/
theorem walk_store (room : t.HasRoom place) (octets : List UInt8) {names : List String}
    (walked : t.walk parent names = .ok other) :
    (t.store place (.file octets)).walk parent names = .ok other := by
  induction names generalizing parent with
  | nil => exact walked
  | cons name rest ih =>
    rw [walk] at walked ⊢
    split at walked
    · cases walked
    · rename_i next entered
      rw [enter_store room octets entered]
      exact ih walked

theorem walk_concat {names : List String} {start : List String}
    (walked : t.walk start names = .ok parent) (entered : t.enter parent last = .ok other) :
    t.walk start (names ++ [last]) = .ok other := by
  induction names generalizing start with
  | nil =>
    obtain rfl := Except.ok.inj walked
    simp only [List.nil_append, walk, entered]
  | cons name rest ih =>
    rw [walk] at walked
    rw [List.cons_append, walk]
    split at walked
    · cases walked
    · exact ih walked

/-! ### Paths of files -/

/-- A path leads to a name in a directory. -/
structure Names (t : FileTree) (path : String) (parent : List String) (last : String) : Prop where
  nonempty : path.isEmpty = false
  short : path.utf8ByteSize < maxPathSize
  parts : ∃ front, pathParts path = front ++ [last] ∧ t.walk (t.startOf path) front = .ok parent
  directory : t.isDirectory parent = true
  proper : last ≠ "" ∧ last ≠ "." ∧ last ≠ ".."
  sized : last.utf8ByteSize ≤ maxNameSize

/-- Names without those at the end that are empty. -/
def dropEmpty (parts : List String) : List String :=
  (parts.reverse.dropWhile (· == "")).reverse

theorem dropEmpty_concat (front : List String) {last : String} (proper : last ≠ "") :
    dropEmpty (front ++ [last]) = front ++ [last] := by
  simp [dropEmpty, proper]

theorem dropEmpty_isPrefix (parts : List String) : dropEmpty parts <+: parts := by
  rw [← List.reverse_suffix, dropEmpty, List.reverse_reverse]
  exact List.dropWhile_suffix _

theorem target_eq (t : FileTree) (path : String) : t.target path =
    if path.isEmpty then .error .noEntry
    else if maxPathSize ≤ path.utf8ByteSize then .error .nameTooLong
    else
      match t.walk (t.startOf path) (dropEmpty (pathParts path)).dropLast with
      | .error e => .error e
      | .ok parent =>
        let last := (dropEmpty (pathParts path)).getLastD ""
        if !t.isDirectory parent then .error .notDirectory
        else if (dropEmpty (pathParts path)).length < (pathParts path).length ∨
            last = "" ∨ last = "." ∨ last = ".." then .error .isDirectory
        else if maxNameSize < last.utf8ByteSize then .error .nameTooLong
        else
          match t.node? (parent ++ [last]) with
          | some .directory => .error .isDirectory
          | some (.refused e) => .error e
          | _ => .ok (parent ++ [last]) := rfl

/-- A file can be written under a path exactly if that leads to a name in a directory at which
nothing stands in the way. -/
theorem target_eq_ok_iff : t.target path = .ok place ↔
    ∃ parent last, t.Names path parent last ∧ place = parent ++ [last] ∧
      t.node? place ≠ some .directory ∧ ∀ e, t.node? place ≠ some (.refused e) := by
  rw [target_eq]
  constructor
  · intro target
    split at target
    · cases target
    rename_i nonempty
    split at target
    · cases target
    rename_i short
    split at target
    · cases target
    rename_i parent walked
    extract_lets last at target
    split at target
    · cases target
    rename_i directory
    split at target
    · cases target
    rename_i proper
    split at target
    · cases target
    rename_i sized
    simp only [not_or] at proper
    obtain ⟨long, proper⟩ := proper
    have whole : dropEmpty (pathParts path) = pathParts path := by
      have kept := dropEmpty_isPrefix (pathParts path)
      exact kept.eq_of_length (Nat.le_antisymm kept.length_le (Nat.le_of_not_lt long))
    have final : last = (pathParts path).getLastD "" := congrArg (List.getLastD · "") whole
    obtain ⟨front, parts⟩ : ∃ front, pathParts path = front ++ [last] := by
      rcases List.eq_nil_or_concat (pathParts path) with none | ⟨front, name, parts⟩
      · exact absurd (by rw [final, none]; rfl) proper.1
      · exact ⟨front, by rw [final, parts]; simp⟩
    rw [whole, parts, List.dropLast_concat] at walked
    have names : t.Names path parent last :=
      ⟨by simpa using nonempty, Nat.lt_of_not_le short, ⟨front, parts, walked⟩,
        by simpa using directory, proper, Nat.le_of_not_lt sized⟩
    split at target
    · cases target
    · cases target
    · rename_i notDirectory notRefused
      obtain rfl := Except.ok.inj target
      exact ⟨parent, last, names, rfl, notDirectory, notRefused⟩
  · rintro ⟨parent, last, names, rfl, notDirectory, notRefused⟩
    obtain ⟨front, parts, walked⟩ := names.parts
    have kept : dropEmpty (pathParts path) = front ++ [last] := by
      rw [parts, dropEmpty_concat front names.proper.1]
    rw [if_neg (by simp [names.nonempty]), if_neg (Nat.not_le_of_lt names.short), kept, parts,
      List.dropLast_concat, walked]
    simp only [List.getLastD_concat, names.directory, names.proper, Bool.not_true,
      Nat.lt_irrefl, or_self, Nat.not_lt_of_le names.sized, if_false, Bool.false_eq_true]

theorem Names.locate_eq (h : t.Names path parent last)
    (found : (t.node? (parent ++ [last])).isSome = true) :
    t.locate path = .ok (parent ++ [last]) := by
  obtain ⟨front, parts, walked⟩ := h.parts
  have entered : t.enter parent last = .ok (parent ++ [last]) := by
    rw [enter, h.directory, if_neg (by simp), if_neg (by simp [h.proper]), if_neg h.proper.2.2,
      if_neg (Nat.not_lt_of_le h.sized), if_pos found]
  rw [locate, if_neg (by simp [h.nonempty]), if_neg (Nat.not_le_of_lt h.short), parts,
    walk_concat walked entered]

theorem Names.store (h : t.Names path parent last) (room : t.HasRoom place)
    (octets : List UInt8) : (t.store place (.file octets)).Names path parent last := by
  obtain ⟨front, parts, walked⟩ := h.parts
  refine ⟨h.nonempty, h.short, ⟨front, parts, walk_store room octets walked⟩, ?_, h.proper,
    h.sized⟩
  rw [isDirectory_store room, h.directory]

/-- The place of a path of something stays its place. -/
theorem locate_store (room : t.HasRoom place) (octets : List UInt8)
    (located : t.locate path = .ok other) :
    (t.store place (.file octets)).locate path = .ok other := by
  unfold locate at located ⊢
  split at located
  · cases located
  · rename_i nonempty
    rw [if_neg nonempty]
    split at located
    · cases located
    · rename_i short
      rw [if_neg short]
      exact walk_store room octets located

/-! ### Writing and reading -/

/-- A file can be written under a path: it then stands at a place, and keeps what is written. -/
structure Writable (t : FileTree) (path : String) (place : List String) : Prop where
  target : t.target path = .ok place
  keeps : t.node? place ≠ some .sink

theorem Writable.hasRoom (h : t.Writable path place) : t.HasRoom place := by
  obtain ⟨parent, last, names, rfl, notDirectory, -⟩ := target_eq_ok_iff.mp h.target
  refine ⟨?_, ?_⟩
  · rw [List.dropLast_concat]
    exact names.directory
  · exact Bool.eq_false_iff.mpr (mt isDirectory_iff.mp notDirectory)

theorem Writable.write_eq (h : t.Writable path place) (octets : List UInt8) :
    t.write path octets = .ok (t.store place (.file octets)) := by
  rw [write, create, h.target]
  simp only [if_neg h.keeps, put, node?_store_self, overwriteAt_empty, store_store]

/-- Once a file has been written, the path leads to its place. -/
theorem Writable.locate_store (h : t.Writable path place) (octets : List UInt8) :
    (t.store place (.file octets)).locate path = .ok place := by
  have room := h.hasRoom
  obtain ⟨parent, last, names, rfl, -⟩ := target_eq_ok_iff.mp h.target
  exact (names.store room octets).locate_eq (by rw [node?_store_self]; rfl)

/-- What was written under a path is read under it. -/
theorem Writable.read_store (h : t.Writable path place) (octets : List UInt8) :
    (t.store place (.file octets)).read path = .ok octets := by
  simp only [read, h.locate_store, node?_store_self]

/-- What is at another place is still read. -/
theorem read_store_of_ne (room : t.HasRoom place) (octets : List UInt8)
    (located : t.locate path = .ok other) (ne : other ≠ place) :
    (t.store place (.file octets)).read path = t.read path := by
  rw [read, read, locate_store room octets located, located]
  simp only [node?_store_of_ne _ room.parent ne]

/-- What is at another place is still a file, or none. -/
theorem isFile_store_of_ne (room : t.HasRoom place) (octets : List UInt8)
    (located : t.locate path = .ok other) (ne : other ≠ place) :
    (t.store place (.file octets)).isFile path = t.isFile path := by
  rw [isFile, isFile, locate_store room octets located, located]
  simp only [node?_store_of_ne _ room.parent ne]

/-- A path under which a file can be written stays such a path. -/
theorem Writable.store (h : t.Writable path place) (room : t.HasRoom other)
    (octets : List UInt8) : (t.store other (.file octets)).Writable path place := by
  obtain ⟨parent, last, names, split, notDirectory, notRefused⟩ := target_eq_ok_iff.mp h.target
  have target := fun directory refused => target_eq_ok_iff.mpr
    ⟨parent, last, names.store room octets, split, directory, refused⟩
  by_cases same : place = other
  · have node : (t.store other (.file octets)).node? place = some (.file octets) := by
      rw [same, node?_store_self]
    refine ⟨target ?_ ?_, ?_⟩ <;> rw [node] <;> simp
  · have node := node?_store_of_ne (.file octets) room.parent same
    exact ⟨target (by rwa [node]) (by rwa [node]), by rw [node]; exact h.keeps⟩

end LexLint.FileTree
