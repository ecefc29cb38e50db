import SqlLayout.Storage.Store

/-!
# What a change of a file leaves

A file that is written is found with its new bytes (`node?_putFile_self`). A file that was there before is
all that changes (`node?_putFile_of_file`); a new file and a removed one also give their directory a new
stamp. No change of a file makes or removes a directory, so every path leads where it led (`locate_congr`,
`locate_of_directories`), none gives or takes a permission (`readOnly_putFile`), and a stamp that is given is
later than all that were given before.
-/

namespace SqlLayout

namespace Node

/-- Whether a node is a directory. -/
def isDirectory : Node → Bool
  | .file .. => false
  | .directory _ => true

end Node

/-- The directory around a location below an anchor is another location. -/
theorem Location.parent_ne {location : Location} (named : location.names ≠ []) :
    location.parent ≠ location := by
  obtain ⟨anchor, names⟩ := location
  cases names with
  | nil => exact absurd rfl named
  | cons name names =>
    intro same
    have shorter := congrArg (fun location => location.names.length) same
    simp [parent] at shorter

/-- The bytes of a text are UTF-8, and they are of this text. -/
theorem fromUTF8?_toUTF8 (text : String) : String.fromUTF8? text.toUTF8 = some text :=
  dif_pos text.isValidUTF8

namespace Store

variable {store other : Store} {location elsewhere : Location} {path : Path} {content : ByteArray} {stamp : Nat}

/-! ## Nodes -/

/-- Where there is no directory, the names are not empty unless the store has a file there. -/
theorem names_ne_nil_of_node? (absent : store.node? location = none) : location.names ≠ [] := by
  intro anchored
  rw [node?, if_pos anchored, Option.or_eq_none_iff] at absent
  cases absent.2

/-- A file is among the nodes that the store holds. -/
theorem lookup_of_file (there : store.node? location = some (.file content stamp)) :
    store.nodes.lookup location = some (.file content stamp) := by
  rw [node?, Option.or_eq_some_iff] at there
  rcases there with held | ⟨_, assumed⟩
  · exact held
  · split at assumed <;> cases assumed

/-- Where there is nothing, the store holds no node. -/
theorem lookup_of_none (absent : store.node? location = none) : store.nodes.lookup location = none := by
  rw [node?, Option.or_eq_none_iff] at absent
  exact absent.1

/-- The first node of a list counts before the others. -/
theorem lookup_cons (entry : Location × Node) (nodes : List (Location × Node)) :
    (entry :: nodes).lookup elsewhere =
      if elsewhere = entry.1 then some entry.2 else nodes.lookup elsewhere := by
  rw [List.lookup_cons]
  by_cases here : elsewhere = entry.1
  · rw [if_pos here, here, beq_self_eq_true]
  · rw [if_neg here, beq_false_of_ne here]

/-- Nodes in which those at one location are replaced have the new one there, if there was one, and elsewhere
what they had. -/
theorem lookup_replace (nodes : List (Location × Node)) (node : Node) :
    (nodes.map fun entry => if entry.1 = location then (location, node) else entry).lookup elsewhere =
      if elsewhere = location then (nodes.lookup location).map fun _ => node else nodes.lookup elsewhere := by
  induction nodes with
  | nil => simp
  | cons entry nodes ih =>
    rw [List.map_cons, lookup_cons, ih, lookup_cons, lookup_cons]
    by_cases here : entry.1 = location
    · rw [if_pos here, here]
      by_cases sought : elsewhere = location <;> simp [sought]
    · rw [if_neg here, if_neg fun same : location = entry.1 => here same.symm]
      by_cases sought : elsewhere = location
      · simp [sought, Ne.symm here]
      · simp [sought]

/-- A node that is put is held at its location, and elsewhere the store holds what it held. -/
theorem lookup_put (store : Store) (node : Node) :
    (store.put location node).nodes.lookup elsewhere =
      if elsewhere = location then some node else store.nodes.lookup elsewhere := by
  rw [put]
  split
  next held =>
    rw [lookup_replace]
    obtain ⟨_, found⟩ := Option.isSome_iff_exists.1 held
    simp [found]
  next absent =>
    have unheld := Option.not_isSome_iff_eq_none.1 absent
    rw [List.lookup_append, lookup_cons, List.lookup_nil]
    by_cases here : elsewhere = location
    · subst here
      simp [unheld]
    · simp [here]

/-- A node that is put is at its location. -/
theorem node?_put_self (store : Store) (node : Node) :
    (store.put location node).node? location = some node := by
  rw [node?, lookup_put, if_pos rfl, Option.some_or]

/-- Elsewhere than where a node is put, all is as it was. -/
theorem node?_put_other (store : Store) (node : Node) (away : elsewhere ≠ location) :
    (store.put location node).node? elsewhere = store.node? elsewhere := by
  rw [node?, lookup_put, if_neg away, node?]

/-- What is touched has the next stamp. -/
theorem node?_touchAt_self (store : Store) (location : Location) :
    (store.touchAt location).node? location = (store.node? location).map (Node.withStamp store.clock) := by
  rw [touchAt]
  split
  next absent => rw [absent]; rfl
  next node there =>
    rw [there]
    exact node?_put_self store _

/-- Elsewhere than where something is touched, all is as it was. -/
theorem node?_touchAt_other (store : Store) (away : elsewhere ≠ location) :
    (store.touchAt location).node? elsewhere = store.node? elsewhere := by
  rw [touchAt]
  split
  next => rfl
  next => exact node?_put_other store _ away

/-- Touching takes at most one stamp. -/
theorem clock_le_touchAt (store : Store) (location : Location) :
    store.clock ≤ (store.touchAt location).clock := by
  rw [touchAt]
  split
  next => exact Nat.le_refl _
  next => exact Nat.le_succ _

/-- Touching what is there takes a stamp. -/
theorem clock_touchAt (there : store.node? location = some node) :
    (store.touchAt location).clock = store.clock + 1 := by
  rw [touchAt, there]

/-! ## Writing a file -/

/-- A file that is written in place of another is the only change. -/
theorem putFile_of_file (there : store.node? location = some (.file content stamp)) (bytes : ByteArray) :
    store.putFile location bytes =
      { store.put location (.file bytes store.clock) with clock := store.clock + 1 } := by
  rw [putFile, if_pos]
  rw [lookup_of_file there]
  rfl

/-- A file that is written where nothing was also changes the directory around it. -/
theorem putFile_of_none (absent : store.node? location = none) (bytes : ByteArray) :
    store.putFile location bytes =
      { store.put location (.file bytes store.clock) with clock := store.clock + 1 }.touchAt
        location.parent := by
  rw [putFile, if_neg]
  rw [lookup_of_none absent]
  exact nofun

/-- Where no directory is, a file that is written has its bytes and the next stamp. -/
theorem node?_putFile_self (free : ∀ stamp, store.node? location ≠ some (.directory stamp))
    (bytes : ByteArray) : (store.putFile location bytes).node? location = some (.file bytes store.clock) := by
  rcases there : store.node? location with _ | ⟨content, stamp⟩ | stamp
  · rw [putFile_of_none there, node?_touchAt_other _ (Location.parent_ne (names_ne_nil_of_node? there)).symm]
    exact node?_put_self store _
  · rw [putFile_of_file there]
    exact node?_put_self store _
  · exact absurd there (free stamp)

/-- Elsewhere than where a file is written in place of another, all is as it was. -/
theorem node?_putFile_of_file (there : store.node? location = some (.file content stamp)) (bytes : ByteArray)
    (away : elsewhere ≠ location) :
    (store.putFile location bytes).node? elsewhere = store.node? elsewhere := by
  rw [putFile_of_file there]
  exact node?_put_other store _ away

/-- Writing a file takes a stamp. -/
theorem clock_lt_putFile (store : Store) (location : Location) (bytes : ByteArray) :
    store.clock < (store.putFile location bytes).clock := by
  rw [putFile]
  split
  next => exact Nat.lt_succ_self _
  next =>
    refine Nat.lt_of_lt_of_le ?_ (clock_le_touchAt _ _)
    exact Nat.lt_succ_self _

/-! ## Where paths lead -/

/-- Whether a directory is at a location. -/
def HasDirectory (store : Store) (location : Location) : Prop :=
  ∃ stamp, store.node? location = some (.directory stamp)

/-- A path leads where it led if every directory is still one. -/
theorem walk_of_directories (kept : ∀ location, store.HasDirectory location → other.HasDirectory location)
    {location found : Location} {parts : List String} (walked : store.walk location parts = .ok found) :
    other.walk location parts = .ok found := by
  induction parts generalizing location with
  | nil => exact walked
  | cons part parts ih =>
    rw [walk] at walked
    split at walked
    next stamp there =>
      obtain ⟨later, still⟩ := kept location ⟨stamp, there⟩
      rw [walk, still]
      dsimp only
      split at walked
      next => cases walked
      next short => rw [if_neg short, ih walked]
    next => cases walked
    next => cases walked

/-- A path leads where it led if every directory is still one. -/
theorem locate_of_directories (kept : ∀ location, store.HasDirectory location → other.HasDirectory location)
    (located : store.locate path = .ok location) : other.locate path = .ok location := by
  rw [locate] at located ⊢
  split at located
  next => cases located
  next short => rw [if_neg short, walk_of_directories kept located]

/-- Whether two stores have files and directories at the same locations. -/
def SameShape (store other : Store) : Prop :=
  ∀ location, (store.node? location).map Node.isDirectory = (other.node? location).map Node.isDirectory

/-- Stores of one shape have the same ways. -/
theorem walk_congr (same : store.SameShape other) (location : Location) (parts : List String) :
    store.walk location parts = other.walk location parts := by
  induction parts generalizing location with
  | nil => rfl
  | cons part parts ih =>
    rw [walk, walk, ih]
    have alike := same location
    generalize store.node? location = mine at alike ⊢
    generalize other.node? location = theirs at alike ⊢
    rcases mine with _ | ⟨⟩ | _ <;> rcases theirs with _ | ⟨⟩ | _ <;> first | rfl | cases alike

/-- In stores of one shape every path leads to the same location. -/
theorem locate_congr (same : store.SameShape other) (path : Path) : store.locate path = other.locate path := by
  rw [locate, locate, walk_congr same]

/-- In stores of one shape a file reads the same if it is the same. -/
theorem readText_congr (same : store.SameShape other)
    (kept : ∀ location, store.locate path = .ok location → other.node? location = store.node? location) :
    other.readText path = store.readText path := by
  have found : other.find path = store.find path := by
    rw [find, find, ← locate_congr same]
    cases located : store.locate path with
    | error => rfl
    | ok location => dsimp only; rw [kept location located]
  rw [readText, readText, read, read, found]

/-- A file whose text can be read is found where its path leads. -/
theorem exists_file_of_readText {text : String} (read : store.readText path = .ok text) :
    ∃ location content stamp, store.locate path = .ok location ∧
      store.node? location = some (.file content stamp) := by
  unfold readText Store.read find at read
  cases located : store.locate path with
  | error =>
    rw [located] at read
    cases read
  | ok location =>
    rcases there : store.node? location with _ | ⟨content, stamp⟩ | stamp
    · simp only [located, there] at read
      cases read
    · exact ⟨location, content, stamp, rfl, there⟩
    · simp only [located, there] at read
      cases read

/-- A file of UTF-8 bytes has their text, with its line breaks made line feeds. -/
theorem readText_of_file (located : store.locate path = .ok location)
    (there : store.node? location = some (.file content stamp)) {text : String}
    (decoded : String.fromUTF8? content = some text) :
    store.readText path = .ok (Text.unifiedNewlines text) := by
  simp only [readText, read, find, located, there, decoded]

/-- A file can be put where its path leads, unless a directory is there. -/
theorem placeOf_of_located (located : store.locate path = .ok location)
    (free : ∀ stamp, store.node? location ≠ some (.directory stamp)) : store.placeOf path = .ok location := by
  rw [placeOf, located]
  dsimp only
  split
  next stamp there => exact absurd there (free stamp)
  next => rfl

/-- A text is written where its path leads, unless a directory is there or there is no permission. -/
theorem writeText_of_located (located : store.locate path = .ok location)
    (free : ∀ stamp, store.node? location ≠ some (.directory stamp)) (writable : location ∉ store.readOnly)
    (text : String) : store.writeText path text = .ok (store.putFile location text.toUTF8) := by
  rw [writeText, write, placeOf_of_located located free]
  dsimp only
  rw [if_neg (by simpa using writable)]

/-- The stamp under a path is the stamp of what is where it leads. -/
theorem stamp?_of_located (located : store.locate path = .ok location) :
    store.stamp? path = (store.node? location).map Node.stamp := by
  simp only [stamp?, find, located]
  cases store.node? location <;> rfl

/-! ## No change of a file gives or takes a permission -/

/-- A node that is put changes no permission. -/
theorem readOnly_put (store : Store) (location : Location) (node : Node) :
    (store.put location node).readOnly = store.readOnly := by
  rw [put]
  split <;> rfl

/-- Touching changes no permission. -/
theorem readOnly_touchAt (store : Store) (location : Location) :
    (store.touchAt location).readOnly = store.readOnly := by
  rw [touchAt]
  split
  next => rfl
  next => exact readOnly_put store _ _

/-- Writing a file changes no permission. -/
theorem readOnly_putFile (store : Store) (location : Location) (bytes : ByteArray) :
    (store.putFile location bytes).readOnly = store.readOnly := by
  rw [putFile]
  split
  next => exact readOnly_put store _ _
  next => exact (readOnly_touchAt _ _).trans (readOnly_put store _ _)

/-! ## No change of a file makes or removes a directory -/

/-- A file that is written in place of another changes no shape. -/
theorem sameShape_putFile (there : store.node? location = some (.file content stamp)) (bytes : ByteArray) :
    store.SameShape (store.putFile location bytes) := by
  intro elsewhere
  by_cases here : elsewhere = location
  · subst here
    rw [node?_putFile_self (by rw [there]; exact nofun), there]
    rfl
  · rw [node?_putFile_of_file there bytes here]

/-- A file that is written where no directory is leaves every directory. -/
theorem hasDirectory_put (free : ¬store.HasDirectory location) (node : Node)
    (directory : store.HasDirectory elsewhere) : (store.put location node).HasDirectory elsewhere := by
  have away : elsewhere ≠ location := by
    rintro rfl
    exact free directory
  obtain ⟨stamp, there⟩ := directory
  exact ⟨stamp, (node?_put_other store node away).trans there⟩

/-- Touching leaves every directory. -/
theorem hasDirectory_touchAt (store : Store) (location : Location) (directory : store.HasDirectory elsewhere) :
    (store.touchAt location).HasDirectory elsewhere := by
  obtain ⟨stamp, there⟩ := directory
  by_cases here : elsewhere = location
  · subst here
    exact ⟨store.clock, by rw [node?_touchAt_self, there]; rfl⟩
  · exact ⟨stamp, (node?_touchAt_other store here).trans there⟩

/-- Writing a file where no directory is leaves every directory. -/
theorem hasDirectory_putFile (free : ¬store.HasDirectory location) (bytes : ByteArray)
    (directory : store.HasDirectory elsewhere) : (store.putFile location bytes).HasDirectory elsewhere := by
  have still := hasDirectory_put free (.file bytes store.clock) directory
  rw [putFile]
  split
  next => exact still
  next => exact hasDirectory_touchAt _ _ still

/-! ## Changes from outside -/

/-- On a way that can be walked no directory is missing but the last name. -/
theorem makeDirectories_of_walk {location found : Location} {parts : List String}
    (walked : store.walk location parts = .ok found) :
    store.makeDirectories location parts.dropLast = store := by
  induction parts generalizing location with
  | nil => rfl
  | cons part parts ih =>
    cases parts with
    | nil => rfl
    | cons next parts =>
      rw [walk] at walked
      split at walked
      next =>
        split at walked
        next => cases walked
        next =>
          have onward := ih walked
          rw [walk] at walked
          rw [List.dropLast_cons_of_ne_nil (List.cons_ne_nil _ _), makeDirectories]
          split at walked
          next there => simpa only [there] using onward
          next => cases walked
          next => cases walked
      next => cases walked
      next => cases walked

/-- A file is added where its path leads, unless a directory is there. -/
theorem addFile_of_located (located : store.locate path = .ok location)
    (free : ∀ stamp, store.node? location ≠ some (.directory stamp)) (content : ByteArray) :
    store.addFile path content = store.putFile location content := by
  have around : store.addDirectory path.parent = store := by
    unfold locate at located
    split at located
    next => cases located
    next => exact makeDirectories_of_walk located
  rw [addFile, around, placeOf_of_located located free]

/-- What a path leads to is touched. -/
theorem touch_of_located (located : store.locate path = .ok location) :
    store.touch path = store.touchAt location := by
  rw [touch, located]

/-- Nodes without those at one location have none there, and elsewhere what they had. -/
theorem lookup_remove (nodes : List (Location × Node)) :
    (nodes.filter fun entry => entry.1 ≠ location).lookup elsewhere =
      if elsewhere = location then none else nodes.lookup elsewhere := by
  induction nodes with
  | nil => simp
  | cons entry nodes ih =>
    rw [lookup_cons, List.filter_cons]
    by_cases here : entry.1 = location
    · rw [if_neg (by simp [here]), ih, here]
      by_cases sought : elsewhere = location <;> simp [sought]
    · rw [if_pos (by simp [here]), lookup_cons, ih]
      by_cases sought : elsewhere = location
      · simp [sought, Ne.symm here]
      · simp [sought]

/-- A file that is deleted is gone, every directory is left, no stamp is taken back, and no permission
changes. -/
theorem delete_of_located (located : store.locate path = .ok location)
    (free : ∀ stamp, store.node? location ≠ some (.directory stamp)) (named : location.names ≠ []) :
    (store.delete path).node? location = none ∧
      (∀ elsewhere, store.HasDirectory elsewhere → (store.delete path).HasDirectory elsewhere) ∧
      store.clock ≤ (store.delete path).clock ∧ (store.delete path).readOnly = store.readOnly := by
  rw [delete, located]
  dsimp only
  split
  next =>
    have removed (elsewhere : Location) :
        { store with nodes := store.nodes.filter fun entry => entry.1 ≠ location }.node? elsewhere =
          if elsewhere = location then none else store.node? elsewhere := by
      rw [node?, lookup_remove, node?]
      split
      next here => rw [here, if_neg named]; rfl
      next => rfl
    refine ⟨?_, ?_, ?_, readOnly_touchAt _ _⟩
    · rw [node?_touchAt_other _ (Location.parent_ne named).symm, removed, if_pos rfl]
    · rintro elsewhere ⟨stamp, there⟩
      refine hasDirectory_touchAt _ _ ⟨stamp, ?_⟩
      rw [removed, if_neg, there]
      rintro rfl
      exact free stamp there
    · refine Nat.le_trans ?_ (clock_le_touchAt _ _)
      exact Nat.le_refl _
  next absent =>
    refine ⟨?_, fun _ directory => directory, Nat.le_refl _, rfl⟩
    rw [node?, Option.not_isSome_iff_eq_none.1 absent, if_neg named]
    rfl

end Store

end SqlLayout
