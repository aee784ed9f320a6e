import FieldShader.Program.Directory

/-!
# Writing to a directory in memory

A text that is written can be read again, at every path that leads to the place it was written to,
and nothing else changes: what could be read at any other path is still read there, and nothing
that could not be read before can be read now (`Directory.read_write`).

Paths are walked through directories, so the proof has to show that the same places are directories
before and after. A new file makes the places above it directories, and these were directories
already, since the path of the file was walked through them (`Directory.stands_of_contains`).
-/

namespace FieldShader

/-- What is left to do by the loop that lists the bytes of an array. -/
theorem toList_loop (bytes : ByteArray) (i : Nat) (done : List UInt8) :
    ByteArray.toList.loop bytes i done = done.reverse ++ bytes.data.toList.drop i := by
  fun_induction ByteArray.toList.loop bytes i done with
  | case1 i done hi ih =>
    have hlist : i < bytes.data.toList.length := hi
    have hbyte : bytes.get! i = bytes.data.toList[i] := getElem!_pos bytes.data i hi
    rw [ih, List.reverse_cons, List.append_assoc, hbyte, List.singleton_append,
      ← List.drop_eq_getElem_cons]
  | case2 i done hi =>
    rw [List.drop_eq_nil_of_le (Nat.not_lt.1 hi), List.append_nil]

/-- The bytes of an array, listed in either way. -/
theorem toList_eq_data_toList (bytes : ByteArray) : bytes.toList = bytes.data.toList :=
  toList_loop bytes 0 []

/-- A place contains another if its names go on in the other's. -/
theorem Place.contains_iff {p q : Place} : p.contains q = true ↔
    p.origin = q.origin ∧ p.names.length < q.names.length ∧ p.names <+: q.names := by
  simp [contains, and_assoc]

namespace Directory

variable {d d' : Directory} {p q : Place} {path : String}

/-! ## Directories on the way -/

/-- Whether a place is a directory: one that is always there, or one with a file in it. -/
def stands (d : Directory) (p : Place) : Bool :=
  p.isStanding || d.files.any (p.contains ·.1)

/-- Every place on the way to the given one, and that one itself, is a directory. -/
def Reaches (d : Directory) (p : Place) : Prop :=
  ∀ names, names <+: p.names → d.stands ⟨p.origin, names⟩ = true

/-- Whether there is a directory at a place is the first question about it, but for its name. -/
theorem entry?_eq (d : Directory) (p : Place) : d.entry? p =
    if p.isTooLong then .error .nameTooLong
    else if d.stands p then .ok (some .directory)
    else if p = .null ∨ p = .full then .ok (some (.file []))
    else .ok ((d.files.lookup p).map .file) :=
  rfl

/-- A directory is found wherever there is one, unless its name is too long. -/
theorem entry?_eq_directory_iff :
    d.entry? p = .ok (some .directory) ↔ p.isTooLong = false ∧ d.stands p = true := by
  rw [entry?_eq]
  by_cases hlong : p.isTooLong = true
  · simp [hlong]
  by_cases hstands : d.stands p = true
  · simp [hlong, hstands]
  · rw [if_neg hlong, if_neg hstands]
    split
    · simp [hstands]
    · cases d.files.lookup p <;> simp [hstands]

/-- Where a name leads to from a directory, if there is a directory. -/
inductive Leads (d : Directory) (p : Place) : String → Place → Prop
  | here : Leads d p "." p
  | up : Leads d p ".." p.parent
  | down {name : String} (dot : name ≠ ".") (dots : name ≠ "..")
      (entry : d.entry? (p.child name) = .ok (some .directory)) : Leads d p name (p.child name)

/-- A walk follows its names one by one. -/
theorem walk_cons_eq_ok_iff {name : String} {rest : List String} :
    d.walk p (name :: rest) = .ok q ↔ ∃ next, d.Leads p name next ∧ d.walk next rest = .ok q := by
  rw [walk]
  constructor
  · intro h
    split at h
    · rename_i hdot
      exact ⟨p, hdot ▸ .here, h⟩
    rename_i hdot
    split at h
    · rename_i hdots
      exact ⟨p.parent, hdots ▸ .up, h⟩
    rename_i hdots
    split at h
    · cases h
    · cases h
    · cases h
    · rename_i hentry
      exact ⟨p.child name, .down hdot hdots hentry, h⟩
  · rintro ⟨next, hnext, h⟩
    cases hnext with
    | here => rwa [if_pos rfl]
    | up => rwa [if_neg (by decide), if_pos rfl]
    | down hdot hdots hentry =>
      rw [if_neg hdot, if_neg hdots, hentry]
      exact h

/-- Where names can start there is a directory. -/
theorem reaches_of_names_eq_nil (h : p.names = []) : d.Reaches p := by
  intro names hnames
  rw [h, List.prefix_nil] at hnames
  simp [stands, Place.isStanding, hnames]

/-- Going up does not leave the directories. -/
theorem Reaches.parent (h : d.Reaches p) : d.Reaches p.parent := by
  unfold Place.parent
  split
  · exact reaches_of_names_eq_nil rfl
  · exact fun names hnames => h names (hnames.trans (List.dropLast_prefix _))

/-- Going down to a directory does not leave them either. -/
theorem Reaches.child {name : String} (h : d.Reaches p) (hname : d.stands (p.child name) = true) :
    d.Reaches (p.child name) := by
  intro names hnames
  rcases List.prefix_concat_iff.1 hnames with rfl | hnames
  · exact hname
  · exact h names hnames

/-- A walk goes from directory to directory. -/
theorem Reaches.walk {names : List String} (h : d.Reaches p) (hwalk : d.walk p names = .ok q) :
    d.Reaches q := by
  induction names generalizing p with
  | nil =>
    cases hwalk
    exact h
  | cons name rest ih =>
    obtain ⟨next, hnext, hrest⟩ := walk_cons_eq_ok_iff.1 hwalk
    cases hnext with
    | here => exact ih h hrest
    | up => exact ih h.parent hrest
    | down _ _ hentry => exact ih (h.child (entry?_eq_directory_iff.1 hentry).2) hrest

/-- Where the names of a path start. -/
def start (path : String) : Place := if path.toList.head? = some '/' then .root else .here

/-- What a path leads to from the directory that its last name is in. -/
def last (p : Place) (path : String) : Target :=
  match (components path).getLast? with
  | none | some "." | some ".." => .directory
  | some name => .entry (p.child name) (path.toList.getLast? = some '/')

/-- A path of the right length leads somewhere if all its names but the last can be walked. -/
theorem locate_eq_ok_iff {t : Target} : d.locate path = .ok t ↔
    '\x00' ∉ path.toList ∧ path.toList ≠ [] ∧ path.utf8ByteSize < 4096 ∧
      ∃ p, d.walk (start path) (components path).dropLast = .ok p ∧ last p path = t := by
  unfold locate
  dsimp only
  by_cases hnul : '\x00' ∈ path.toList
  · simp [hnul]
  by_cases hnil : path.toList = []
  · simp [hnil]
  by_cases hlong : path.utf8ByteSize ≥ 4096
  · simp [hnul, hnil, hlong, Nat.not_lt.2 hlong]
  have hstart : (if path.toList.head? = some '/' then Place.root else Place.here) = start path :=
    rfl
  rw [if_neg hnul, if_neg hnil, if_neg hlong, hstart]
  cases d.walk (start path) (components path).dropLast with
  | error f => simp
  | ok p =>
    have hshort : path.utf8ByteSize < 4096 := Nat.lt_of_not_ge hlong
    simp only [hnul, hnil, hshort, not_false_eq_true, ne_eq, true_and, Except.ok.injEq,
      exists_eq_left']
    split <;> simp [last, *]

/-- What contains the place that a path leads to is a directory. -/
theorem stands_of_contains {slash : Bool} (h : d.locate path = .ok (.entry p slash))
    (hq : q.contains p = true) : d.stands q = true := by
  obtain ⟨-, -, -, parent, hwalk, hlast⟩ := locate_eq_ok_iff.1 h
  have hparent : d.Reaches parent := by
    refine Reaches.walk (reaches_of_names_eq_nil ?_) hwalk
    unfold start
    split <;> rfl
  obtain ⟨name, rfl⟩ : ∃ name, parent.child name = p := by
    unfold last at hlast
    split at hlast <;> cases hlast
    exact ⟨_, rfl⟩
  obtain ⟨horigin, hlength, hnames⟩ := Place.contains_iff.1 hq
  rcases List.prefix_concat_iff.1 hnames with heq | hnames
  · rw [heq] at hlength
    exact absurd hlength (Nat.lt_irrefl _)
  · have hstands := hparent q.names hnames
    rwa [show parent.origin = q.origin from horigin.symm] at hstands

/-! ## The same directories -/

/-- Directories in memory with the same places as directories. -/
def SameDirectories (d d' : Directory) : Prop :=
  ∀ p, d.entry? p = .ok (some .directory) ↔ d'.entry? p = .ok (some .directory)

/-- A walk through them gets to the same place. -/
theorem SameDirectories.walk {names : List String} (h : SameDirectories d d')
    (hwalk : d.walk p names = .ok q) : d'.walk p names = .ok q := by
  induction names generalizing p with
  | nil => exact hwalk
  | cons name rest ih =>
    obtain ⟨next, hnext, hrest⟩ := walk_cons_eq_ok_iff.1 hwalk
    refine walk_cons_eq_ok_iff.2 ⟨next, ?_, ih hrest⟩
    cases hnext with
    | here => exact .here
    | up => exact .up
    | down hdot hdots hentry => exact .down hdot hdots ((h _).1 hentry)

/-- A path leads to the same place in them. -/
theorem SameDirectories.locate_iff {t : Target} (h : SameDirectories d d') :
    d'.locate path = .ok t ↔ d.locate path = .ok t := by
  have hwalk {p q : Place} {names : List String} :
      d'.walk p names = .ok q ↔ d.walk p names = .ok q :=
    ⟨SameDirectories.walk fun r => (h r).symm, h.walk⟩
  simp only [locate_eq_ok_iff, hwalk]

/-! ## Writing -/

/-- The directory with a file at a place, in the place of any other file there. -/
def put (d : Directory) (p : Place) (bytes : List UInt8) : Directory :=
  ⟨(p, bytes) :: d.files.filter (·.1 ≠ p)⟩

/-- Writing puts a file where the path leads to, unless what is written there is lost. -/
theorem write_of_locate {slash : Bool} (h : d.locate path = .ok (.entry p slash))
    (hnull : p ≠ .null) (text : String) :
    d.write path text = d.put p text.toUTF8.data.toList := by
  simp only [write, h, if_neg hnull, toList_eq_data_toList]
  rfl

/-- A path that is not refused leads to a place where a file can be. -/
theorem exists_of_refuses_eq_none (h : d.refuses path = none) :
    ∃ p, d.locate path = .ok (.entry p false) ∧ p ≠ .full ∧ p.isTooLong = false ∧
      d.stands p = false := by
  unfold refuses at h
  split at h
  · cases h
  · cases h
  · cases h
  rename_i p hlocate
  split at h
  · cases h
  · cases h
  rename_i found hdirectory hfound
  have hfull : p ≠ .full := fun hfull => by simp [hfull] at h
  have hlong : p.isTooLong = false := by
    rw [entry?_eq] at hfound
    split at hfound
    · cases hfound
    · exact eq_false_of_ne_true ‹_›
  refine ⟨p, hlocate, hfull, hlong, eq_false_of_ne_true fun hstands => ?_⟩
  rw [entry?_eq_directory_iff.2 ⟨hlong, hstands⟩] at hfound
  exact hdirectory (Except.ok.inj hfound).symm

/-- A file is read where its path leads to it, without a slash after its name. -/
theorem read_eq_ok_iff {bytes : List UInt8} : d.read path = .ok bytes ↔
    ∃ p, d.locate path = .ok (.entry p false) ∧ d.entry? p = .ok (some (.file bytes)) := by
  unfold read
  cases d.locate path with
  | error f => simp
  | ok t =>
    cases t with
    | directory => simp
    | entry p slash =>
      simp only [Except.ok.injEq, Target.entry.injEq]
      constructor
      · intro h
        split at h
        · cases h
        · cases h
        · cases h
        · rename_i found hfound
          split at h
          · cases h
          · cases h
            exact ⟨p, ⟨rfl, eq_false_of_ne_true ‹_›⟩, hfound⟩
      · rintro ⟨q, ⟨rfl, rfl⟩, hentry⟩
        rw [hentry]
        rfl

/-- The files at other places are looked up as before. -/
theorem lookup_filter_ne {α : Type} {files : List (Place × α)} (h : q ≠ p) :
    (files.filter (·.1 ≠ p)).lookup q = files.lookup q := by
  induction files with
  | nil => rfl
  | cons file rest ih =>
    obtain ⟨place, bytes⟩ := file
    by_cases hplace : place = p
    · rw [List.filter_cons_of_neg (by simp [hplace]), ih, List.lookup_cons, hplace,
        beq_false_of_ne h]
    · rw [List.filter_cons_of_pos (by simp [hplace]), List.lookup_cons, List.lookup_cons, ih]

section

variable {bytes : List UInt8}

/-- A file makes no place a directory that is none without it. -/
theorem stands_put (h : ∀ q, q.contains p = true → d.stands q = true) (q : Place) :
    (d.put p bytes).stands q = d.stands q := by
  rw [Bool.eq_iff_iff]
  constructor
  · intro hq
    rcases Bool.or_eq_true_iff.1 hq with hq | hq
    · exact Bool.or_eq_true_iff.2 (.inl hq)
    · obtain ⟨file, hfile, hcontains⟩ := List.any_eq_true.1 hq
      rcases List.mem_cons.1 hfile with rfl | hfile
      · exact h q hcontains
      · exact Bool.or_eq_true_iff.2
          (.inr (List.any_eq_true.2 ⟨file, (List.mem_filter.1 hfile).1, hcontains⟩))
  · intro hq
    rcases Bool.or_eq_true_iff.1 hq with hq | hq
    · exact Bool.or_eq_true_iff.2 (.inl hq)
    · obtain ⟨file, hfile, hcontains⟩ := List.any_eq_true.1 hq
      refine Bool.or_eq_true_iff.2 (.inr (List.any_eq_true.2 ?_))
      by_cases hplace : file.1 = p
      · exact ⟨(p, bytes), List.mem_cons_self, hplace ▸ hcontains⟩
      · exact ⟨file, List.mem_cons_of_mem _ (List.mem_filter.2 ⟨hfile, by simpa using hplace⟩),
          hcontains⟩

/-- What is at other places does not change. -/
theorem entry?_put_of_ne (h : ∀ q, q.contains p = true → d.stands q = true) (hne : q ≠ p) :
    entry? (d.put p bytes) q = d.entry? q := by
  have hlookup : (d.put p bytes).files.lookup q = d.files.lookup q := by
    rw [put, List.lookup_cons, beq_false_of_ne hne]
    exact lookup_filter_ne hne
  rw [entry?_eq, entry?_eq, stands_put h, hlookup]

/-- A file is found where it is put, if a file can be there. -/
theorem entry?_put_self (h : ∀ q, q.contains p = true → d.stands q = true)
    (hlong : p.isTooLong = false) (hstands : d.stands p = false) (hnull : p ≠ .null)
    (hfull : p ≠ .full) : entry? (d.put p bytes) p = .ok (some (.file bytes)) := by
  have hlookup : (d.put p bytes).files.lookup p = some bytes := List.lookup_cons_self
  rw [entry?_eq, stands_put h, hlong, hstands, hlookup]
  simp [hnull, hfull]

end

/-- **A text that is written can be read, and nothing else has changed.** Unless the path leads to
the device where everything is lost, the text is read at every path that leads to the same place; at
the other paths the same is read as before. -/
theorem read_write (h : d.refuses path = none)
    (hnull : d.locate path ≠ .ok (.entry .null false)) (text other : String) :
    (d.locate other = d.locate path →
      (d.write path text).read other = .ok text.toUTF8.data.toList) ∧
    (d.locate other ≠ d.locate path →
      ∀ bytes, (d.write path text).read other = .ok bytes ↔ d.read other = .ok bytes) := by
  obtain ⟨p, hlocate, hfull, hlong, hstands⟩ := exists_of_refuses_eq_none h
  have hp : p ≠ .null := fun hp => hnull (hp ▸ hlocate)
  have habove : ∀ q, q.contains p = true → d.stands q = true :=
    fun q => stands_of_contains hlocate
  rw [write_of_locate hlocate hp, hlocate]
  generalize text.toUTF8.data.toList = written
  have hsame : SameDirectories d (d.put p written) := fun q => by
    rw [entry?_eq_directory_iff, entry?_eq_directory_iff, stands_put habove]
  constructor
  · intro hother
    exact read_eq_ok_iff.2 ⟨p, hsame.locate_iff.2 hother,
      entry?_put_self habove hlong hstands hp hfull⟩
  · intro hother bytes
    rw [read_eq_ok_iff, read_eq_ok_iff]
    refine exists_congr fun q => ?_
    rw [hsame.locate_iff]
    refine and_congr_right fun hq => ?_
    rw [entry?_put_of_ne habove fun heq => hother (heq ▸ hq)]

/-- What is written to the device where everything is lost cannot be read. -/
example : (ofFiles []).refuses "/dev/null" = none ∧
    (((ofFiles []).write "/dev/null" "text").read "/dev/null").toOption = some [] := by
  decide +kernel

end Directory

end FieldShader
