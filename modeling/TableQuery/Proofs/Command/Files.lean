import TableQuery.Proofs.Command.Failures

/-!
# The files of a command that fails

A command reads its policy and its table before it touches a file, and a view touches none.  An
export makes its file, or empties it, before the filter is read, and then writes to it.  So a
command that fails leaves all files as they were, unless it is an export whose filter is at fault,
which leaves its file empty, or one that cannot write its file to the end
(`Command.failed_run_keeps_files_iff`).  This is so over every file system that keeps to
`FileSystem.Lawful`, as the one of a store does (`FileStore.lawful_system`).  In a store a path that
starts at the root, or goes up and down again, leads to the same files as one that starts in the
directory in which commands run (`FileStore.locate_home`, `FileStore.locate_up`).
-/

namespace TableQuery

/-! ### Where paths lead -/

namespace FileStore

/-- A name that a file or directory can have. -/
structure IsName (name : String) : Prop where
  ne_empty : name ≠ ""
  ne_dot : name ≠ "."
  ne_dots : name ≠ ".."
  short : name.utf8ByteSize < nameLimit

variable {s : FileStore} {here names steps : List String} {name : String}

theorem isDirectory_of_prefix_home (h : names <+: s.home) :
  s.isDirectory names = true
  := by
  simp [isDirectory, h]

/-- A way through directories leads down by their names. -/
theorem walk_names (hnames : ∀ name ∈ names, IsName name)
    (hdirectories : ∀ up, up <+: here ++ names → s.isDirectory up = true) (hsteps : steps ≠ []) :
  s.walk here (names ++ steps) = s.walk (here ++ names) steps
  := by
  induction names generalizing here with
  | nil => rw [List.nil_append, List.append_nil]
  | cons name names ih =>
    obtain ⟨hempty, hdot, hdots, hshort⟩ := hnames name List.mem_cons_self
    have hassoc : here ++ name :: names = here ++ [name] ++ names := by simp
    rw [hassoc] at hdirectories ⊢
    have hdirectory := hdirectories (here ++ [name]) (List.prefix_append _ _)
    have hrest : (names ++ steps).isEmpty = false := by simp [hsteps]
    rw [List.cons_append, walk, if_neg (not_or.mpr ⟨hempty, hdot⟩), if_neg hdots,
      if_neg (Nat.not_le.mpr hshort), hrest]
    simp only [hdirectory, if_true, if_false, Bool.false_eq_true]
    apply ih (fun name' h => hnames name' (List.mem_cons_of_mem _ h)) hdirectories

/-- The path from the root through the directory in which commands run leads where the rest of the
path does. -/
theorem locate_home (hhome : ∀ name ∈ s.home, IsName name) (hsteps : steps ≠ [])
    (hrelative : steps.head? ≠ some "") :
  s.locate ("" :: (s.home ++ steps)) = s.locate steps
  := by
  rw [locate, locate, if_pos List.head?_cons, if_neg hrelative, walk, if_pos (.inl rfl),
    walk_names hhome (fun up h => isDirectory_of_prefix_home h) hsteps, List.nil_append]

/-- The way up and down again, by the name of the directory in which commands run, leads where the
rest of the path does. -/
theorem locate_up (hhome : s.home = names ++ [name]) (hname : IsName name) (hsteps : steps ≠ [])
    (hrelative : steps.head? ≠ some "") :
  s.locate (".." :: name :: steps) = s.locate steps
  := by
  have hdown : s.walk names ([name] ++ steps) = s.walk (names ++ [name]) steps := by
    apply walk_names (List.forall_mem_singleton.mpr hname) _ hsteps
    rw [← hhome]
    exact fun up h => isDirectory_of_prefix_home h
  rw [locate, locate, if_neg (by simp), if_neg hrelative, walk, if_neg (by simp), if_pos rfl, hhome,
    List.dropLast_concat]
  exact hdown

example :
  ["t", "/a/t", "../a/./t"].all fun path =>
    (ofList ["a"] [("t", [49])]).find path = .ok (some [49])
  := by decide +kernel

end FileStore

/-! ### What operations do to files -/

/-- What the operations of a file system do to files, where `bytes? w file` are the bytes of a file
in the state `w`, if it is there.  To ask for a size or to read changes no file.  A file that is
made is empty, and no other file changes; none does if it cannot be made.  To write to a file
changes no other file, whether or not it gets to the end. -/
structure FileSystem.Lawful {σ File : Type} (fs : FileSystem (StateM σ) File)
    (bytes? : σ → File → Option (List UInt8)) : Prop where
  size {path : String} {r : Except FileError Nat} {w w' : σ}
    (h : (fs.size path).run w = (r, w')) : bytes? w' = bytes? w
  read {path : String} {r : Except FileError (List UInt8)} {w w' : σ}
    (h : (fs.read path).run w = (r, w')) : bytes? w' = bytes? w
  create_ok {path : String} {file : File} {w w' : σ}
    (h : (fs.create path).run w = (.ok file, w')) :
    bytes? w' file = some [] ∧ ∀ other, other ≠ file → bytes? w' other = bytes? w other
  create_error {path : String} {err : FileError} {w w' : σ}
    (h : (fs.create path).run w = (.error err, w')) : bytes? w' = bytes? w
  write {file : File} {bytes : List UInt8} {r : Except FileError Unit} {w w' : σ}
    (h : (fs.write file bytes).run w = (r, w')) :
    ∀ other, other ≠ file → bytes? w' other = bytes? w other

namespace FileStore

theorem bytes?_put_nil (s : FileStore) (file : String) :
  (s.put file []).bytes? file = some []
  := by
  rw [put, bytes?]
  split
  · rfl
  · apply (Record.get?_insert _ _ _ _).trans (if_pos rfl)

theorem bytes?_put_of_ne {s : FileStore} {file other : String} (hne : other ≠ file)
    (bytes : List UInt8) :
  (s.put file bytes).bytes? other = s.bytes? other
  := by
  rw [put]
  split
  · rfl
  · have hget := Record.get?_insert s.files file other bytes
    rw [if_neg hne] at hget
    simp only [bytes?, hget]

theorem eq_put_of_create {s made : FileStore} {path file : String}
    (h : s.create path = .ok (file, made)) :
  made = s.put file []
  := by
  rw [create] at h
  cases htarget : (pathSteps path).bind s.target with
  | error e =>
    rw [htarget] at h
    cases h
  | ok target =>
    rw [htarget] at h
    cases h
    rfl

theorem run_system_create (path : String) (s : FileStore) :
  (system.create path).run s
    = match s.create path with
      | .error e => (.error e, s)
      | .ok (file, made) => (.ok file, made)
  := by
  have hget : (get : StateM FileStore FileStore).run s = (s, s) := rfl
  simp only [system]
  rw [Command.run_bind_of_run hget]
  cases s.create path <;> rfl

theorem run_system_create_of_ok {s made : FileStore} {path file : String}
    (h : s.create path = .ok (file, made)) :
  (system.create path).run s = (.ok file, made)
  := by
  rw [run_system_create, h]

/-- The files of a store are a lawful file system. -/
theorem lawful_system :
  FileSystem.Lawful system bytes?
  := by
  constructor
  case size =>
    intro path r w w' h
    cases h
    rfl
  case read =>
    intro path r w w' h
    cases h
    rfl
  case create_ok =>
    intro path file w w' h
    rw [run_system_create] at h
    cases hcreate : w.create path with
    | error e =>
      rw [hcreate] at h
      cases h
    | ok made =>
      obtain ⟨file', made⟩ := made
      obtain rfl := eq_put_of_create hcreate
      rw [hcreate] at h
      cases h
      exact ⟨bytes?_put_nil w file, fun other hne => bytes?_put_of_ne hne []⟩
  case create_error =>
    intro path err w w' h
    rw [run_system_create] at h
    cases hcreate : w.create path with
    | error e =>
      rw [hcreate] at h
      cases h
      rfl
    | ok made =>
      rw [hcreate] at h
      cases h
  case write =>
    intro file bytes r w w' h other hne
    cases h
    apply bytes?_put_of_ne hne

end FileStore

namespace Command

variable {σ File : Type} {fs : FileSystem (StateM σ) File} {reason : String → String}
  {a : Arguments} {s : Session} {w w' : σ} {e : CommandError}
  {bytes? : σ → File → Option (List UInt8)} {file file' : File}

/-! ### Loading leaves the files as they are -/

theorem bytes?_choosePolicy (laws : fs.Lawful bytes?) {path? : Option String}
    {r : Except CommandError Policy} (h : (choosePolicy fs reason path?).run w = (r, w')) :
  bytes? w' = bytes? w
  := by
  rcases read_of_choosePolicy h with ⟨-, -, rfl⟩ | ⟨path, read, -, hread⟩
  · rfl
  · apply laws.read hread

theorem bytes?_of_unprepared (laws : fs.Lawful bytes?) (h : Unprepared fs reason a w e w') :
  bytes? w' = bytes? w
  := by
  cases h with
  | policyFile _ hread | policyBytes _ hread _ | policy _ hread _ _ => apply laws.read hread
  | size hpolicy hsize | limit hpolicy hsize _ =>
    rw [laws.size hsize, bytes?_choosePolicy laws hpolicy]
  | read hpolicy hsize _ hread | load hpolicy hsize _ hread _ =>
    rw [laws.read hread, laws.size hsize, bytes?_choosePolicy laws hpolicy]

theorem bytes?_of_prepared (laws : fs.Lawful bytes?) (h : Prepared fs reason a w s w') :
  bytes? w' = bytes? w
  := by
  obtain ⟨hpolicy, hsize, -, hread, -⟩ := h
  rw [laws.read hread, laws.size hsize, bytes?_choosePolicy laws hpolicy]

/-- A table that is found in a store, and is not too large, is loaded. -/
theorem prepare_system {files : FileStore} {bytes : List UInt8} (hpolicy : a.policy? = none)
    (hfind : files.find a.file = .ok (some bytes))
    (hsize : (Session.start .strict).checkSize bytes.length = .ok ())
    (hload : (Session.start .strict).loadBytes bytes = .ok s) :
  (prepare FileStore.system reason a).run files = (.ok s, files)
  := by
  have hchoose : (choosePolicy FileStore.system reason a.policy?).run files
      = (.ok .strict, files) := by
    rw [hpolicy]
    rfl
  have hask : (FileStore.system.size a.file).run files = (.ok bytes.length, files) := by
    apply congrArg (·, files) (_ : files.size a.file = .ok bytes.length)
    rw [FileStore.size, hfind]
    rfl
  have hread : (FileStore.system.read a.file).run files = (.ok bytes, files) := by
    apply congrArg (·, files) (_ : files.read a.file = .ok bytes)
    rw [FileStore.read, hfind]
    rfl
  apply (Prepared.intro hchoose hask hsize hread hload).run

/-! ### What can be at fault -/

/-- A load has no filter that could be at fault, and writes no file. -/
theorem not_fault_of_unprepared (h : Unprepared fs reason a w e w') :
  ¬ ((∃ f, e = .session (.filter f)) ∨ ∃ err, e = .writeFile err)
  := by
  cases h with
  | policyFile | policyBytes | policy | size | read => simp
  | limit _ _ hlimit => simp [Session.checkSize_error hlimit]
  | load _ _ _ _ hload =>
    rcases Session.loadBytes_error hload with ⟨fault, rfl⟩ | ⟨t, fault, rfl, -, -⟩ <;> simp

/-! ### Commands that fail -/

/-- The command gets as far as to make a file for its export. -/
inductive Makes (fs : FileSystem (StateM σ) File) (reason : String → String) (a : Arguments)
    (w : σ) : File → Prop where
  | intro {s : Session} {path : String} {file : File} {w₀ w₁ : σ}
    (prepare : (prepare fs reason a).run w = (.ok s, w₀)) (named : a.exportTo? = some path)
    (create : (fs.create path).run w₀ = (.ok file, w₁)) :
    Makes fs reason a w file

/-- A command that fails after it has made a file could not read its filter and has left the file
empty, or could not write the file to its end.  It has changed no other file. -/
theorem fault_of_makes (laws : fs.Lawful bytes?) (hmakes : Makes fs reason a w file)
    (h : Fails fs reason a w e w') :
  (∀ other, other ≠ file → bytes? w' other = bytes? w other) ∧
    ((∃ f, e = .session (.filter f)) ∧ bytes? w' file = some [] ∨ ∃ err, e = .writeFile err)
  := by
  obtain ⟨hprepare, hnamed, hcreate⟩ := hmakes
  have hprepared := prepared_of_run hprepare
  have hkept := bytes?_of_prepared laws hprepared
  obtain ⟨hempty, hothers⟩ := laws.create_ok hcreate
  rw [hkept] at hothers
  cases h with
  | prepare hprepare' => cases hprepare.symm.trans hprepare'
  | view _ hnamed' _ => cases hnamed.symm.trans hnamed'
  | create hprepare' hnamed' hcreate' =>
    cases hprepare.symm.trans hprepare'
    cases hnamed.symm.trans hnamed'
    cases hcreate.symm.trans hcreate'
  | rows hprepare' hnamed' hcreate' hrows =>
    cases hprepare.symm.trans hprepare'
    cases hnamed.symm.trans hnamed'
    cases hcreate.symm.trans hcreate'
    obtain ⟨d, held⟩ := hprepared.exists_dataset
    obtain ⟨f, rfl, -⟩ := Session.exists_filter_of_exportRows held hrows
    exact ⟨hothers, .inl ⟨⟨f, rfl⟩, hempty⟩⟩
  | write hprepare' hnamed' hcreate' _ hwrite =>
    cases hprepare.symm.trans hprepare'
    cases hnamed.symm.trans hnamed'
    cases hcreate.symm.trans hcreate'
    refine ⟨fun other hne => ?_, .inr ⟨_, rfl⟩⟩
    rw [laws.write hwrite other hne, hothers other hne]

/-- A command that fails before it has made a file has changed none. -/
theorem kept_of_not_makes (laws : fs.Lawful bytes?) (hmakes : ∀ file, ¬ Makes fs reason a w file)
    (h : Fails fs reason a w e w') :
  bytes? w' = bytes? w
  := by
  cases h with
  | prepare hprepare => apply bytes?_of_unprepared laws (unprepared_of_run hprepare)
  | view hprepare _ _ => apply bytes?_of_prepared laws (prepared_of_run hprepare)
  | create hprepare _ hcreate =>
    rw [laws.create_error hcreate, bytes?_of_prepared laws (prepared_of_run hprepare)]
  | rows hprepare hnamed hcreate _ | write hprepare hnamed hcreate _ _ =>
    exact absurd (.intro hprepare hnamed hcreate) (hmakes _)

/-- An export whose filter is at fault, or that cannot write to its end, has made a file. -/
theorem exists_makes_of_fault (hnamed : a.exportTo? ≠ none) (h : Fails fs reason a w e w')
    (hfault : (∃ f, e = .session (.filter f)) ∨ ∃ err, e = .writeFile err) :
  ∃ file, Makes fs reason a w file
  := by
  cases h with
  | prepare hprepare => exact absurd hfault (not_fault_of_unprepared (unprepared_of_run hprepare))
  | view _ hnone _ => exact absurd hnone hnamed
  | create => simp at hfault
  | rows hprepare hnamed hcreate _ | write hprepare hnamed hcreate _ _ =>
    exact ⟨_, .intro hprepare hnamed hcreate⟩

/-- A command that fails leaves all files as they were exactly if it has made no file, or the file
that it has made is left as it was.  It has made one exactly if it is an export whose filter is at
fault or whose file cannot be written to its end.  In the first case this file is empty afterwards,
and no other file is changed in either. -/
theorem failed_run_keeps_files_iff (laws : fs.Lawful bytes?)
    (h : (perform fs reason a).run w = (.error e, w')) :
  (bytes? w' = bytes? w ↔ ∀ file, Makes fs reason a w file → bytes? w' file = bytes? w file) ∧
    ((∃ file, Makes fs reason a w file) ↔
      a.exportTo? ≠ none ∧ ((∃ f, e = .session (.filter f)) ∨ ∃ err, e = .writeFile err)) ∧
    ∀ file, Makes fs reason a w file →
      (∀ other, other ≠ file → bytes? w' other = bytes? w other) ∧
      ((∃ f, e = .session (.filter f)) → bytes? w' file = some [])
  := by
  have hfails := fails_of_run h
  refine ⟨⟨?_, ?_⟩, ⟨?_, ?_⟩, ?_⟩
  · intro hkept file _
    rw [hkept]
  · intro hsame
    by_cases hmakes : ∃ file, Makes fs reason a w file
    · obtain ⟨file, hmakes⟩ := hmakes
      funext other
      by_cases hother : other = file
      · subst hother
        apply hsame other hmakes
      · apply (fault_of_makes laws hmakes hfails).1 other hother
    · apply kept_of_not_makes laws (not_exists.mp hmakes) hfails
  · rintro ⟨file, hmakes⟩
    have hfault := (fault_of_makes laws hmakes hfails).2
    obtain ⟨-, hnamed, -⟩ := hmakes
    exact ⟨by simp [hnamed], hfault.imp_left And.left⟩
  · rintro ⟨hnamed, hfault⟩
    apply exists_makes_of_fault hnamed hfails hfault
  · intro file hmakes
    obtain ⟨hothers, hfault⟩ := fault_of_makes laws hmakes hfails
    refine ⟨hothers, ?_⟩
    rintro ⟨f, rfl⟩
    rcases hfault with ⟨-, hempty⟩ | ⟨err, herr⟩
    · exact hempty
    · cases herr

/-! ### A table of one number -/

/-- A table of one number in a file, in a store that can hold so many bytes. -/
def numberStore (capacity? : Option Nat) : FileStore :=
  { FileStore.ofList [] [("t", Text.encode "n\n1\n")] with capacity? }

/-- The rows that satisfy a filter are to be exported from the file. -/
def exportNumber (filter path : String) : Arguments :=
  { file := "t", filter, sort? := none, direction := .ascending, page := 0, size? := none,
    exportTo? := some path, policy? := none }

/-- The session with the table loaded. -/
def numberSession : Session :=
  ⟨.strict, some ⟨.inferred ["n"] [.ofList [("n", "1")]] 100, [.ofList [("n", .int 1)]]⟩⟩

theorem prepare_numberStore {capacity? : Option Nat} (hcapacity : capacity? ∈ [none, some 5])
    (filter path : String) :
  (prepare FileStore.system id (exportNumber filter path)).run (numberStore capacity?)
    = (.ok numberSession, numberStore capacity?)
  := by
  have hfind : (numberStore capacity?).find "t" = .ok (some (Text.encode "n\n1\n")) := by
    revert capacity?
    decide +kernel
  apply prepare_system rfl hfind (by decide +kernel)
  decide +kernel

/-- An export over the file that is read, with a filter that ends too early, empties the file, and
one to a new file that has room for a byte only stops after it. -/
theorem failed_run_keeps_files_iff_of_number :
  (∃ files f, (perform FileStore.system id (exportNumber "(" "t")).run (numberStore none)
      = (.error (.session (.filter f)), files) ∧
    files.bytes? "t" = some [] ∧ files.bytes? ≠ (numberStore none).bytes?) ∧
  ∃ files, (perform FileStore.system id (exportNumber "" "u")).run (numberStore (some 5))
      = (.error (.writeFile .noSpace), files) ∧
    (numberStore (some 5)).bytes? "u" = none ∧ files.bytes? "u" = some (Text.encode "n") ∧
    files.bytes? "t" = (numberStore (some 5)).bytes? "t"
  := by
  constructor
  · let err : Filter.FilterError := .parse (.expectedExpression (.endAt 1))
    let made : FileStore := FileStore.ofList [] [("t", [])]
    have hprepare := @prepare_numberStore none (by simp) "(" "t"
    have hcreate : (numberStore none).create "t" = .ok ("t", made) := by decide +kernel
    have hcreate := FileStore.run_system_create_of_ok hcreate
    have hrun := (Fails.rows hprepare rfl hcreate
      (show numberSession.exportRows "(" = .error (.filter err) by decide +kernel)).run
    have hmakes := Makes.intro hprepare rfl hcreate
    obtain ⟨hiff, -, hfile⟩ := failed_run_keeps_files_iff FileStore.lawful_system hrun
    refine ⟨made, err, hrun, (hfile "t" hmakes).2 ⟨err, rfl⟩, fun hkept => ?_⟩
    have hsame := hiff.mp hkept "t" hmakes
    revert hsame
    decide +kernel
  · let made := (numberStore (some 5)).put "u" []
    have hprepare := @prepare_numberStore (some 5) (by simp) "" "u"
    have hcreate : (numberStore (some 5)).create "u" = .ok ("u", made) := by decide +kernel
    have hcreate := FileStore.run_system_create_of_ok hcreate
    have hwrite : made.write "u" (Text.encode "n\n1\n")
        = (.error .noSpace, made.put "u" (Text.encode "n")) := by decide +kernel
    have hrun := (Fails.write hprepare rfl hcreate
      (show numberSession.exportRows "" = .ok ("n\n1\n", 1) by decide +kernel) hwrite).run
    have hmakes := Makes.intro hprepare rfl hcreate
    obtain ⟨-, -, hfile⟩ := failed_run_keeps_files_iff FileStore.lawful_system hrun
    exact ⟨_, hrun, by decide +kernel, by decide +kernel, (hfile "u" hmakes).1 "t" (by decide)⟩

end Command

end TableQuery
