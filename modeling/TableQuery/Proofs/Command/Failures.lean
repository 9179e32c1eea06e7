import TableQuery.Command.Run
import TableQuery.Proofs.Filter.Matching
import TableQuery.Proofs.Session.History

/-!
# How commands fail

With a table loaded, rows can be shown or exported unless the filter cannot be read
(`Session.exists_filter_of_view`, `Session.exists_filter_of_exportRows`).  Over a file system that
runs on states, a command goes from one state to another.  It loads its table (`Command.Prepared`)
or fails on the way (`Command.Unprepared`), and then it shows a page or makes a file and writes to
it.  `Command.Fails` lists the ways in which it fails and the states in which it does; there are no
others (`Command.fails_iff`).
-/

namespace TableQuery

/-! ### Errors of a session -/

theorem exists_of_bind_eq_error {ε α β : Type} {x : Except ε α} {f : α → Except ε β} {e : ε}
    (h : x >>= f = .error e) :
  x = .error e ∨ ∃ a, x = .ok a ∧ f a = .error e
  := by
  cases x with
  | error e' =>
    cases h
    exact .inl rfl
  | ok a => exact .inr ⟨a, rfl, h⟩

/-- A name that is repeated is one of the names. -/
theorem Schema.mem_of_ofColumns_error {columns : List (String × ColumnType)} {name : String}
    (h : ofColumns columns = .error (.duplicateHeader name)) :
  name ∈ columns.map Prod.fst
  := by
  induction columns using List.reverseRecOn with
  | nil => cases h
  | append_singleton columns c ih =>
    rw [ofColumns_concat] at h
    rw [List.map_append, List.mem_append]
    rcases exists_of_bind_eq_error h with h | ⟨s, -, h⟩
    · exact .inl (ih h)
    · rw [addColumn] at h
      split_ifs at h
      cases h
      exact .inr (by simp)

theorem Dataset.mem_headers_of_load_error {headers : List String} {rows : List RawRow}
    {sampleSize : Nat} {name : String}
    (h : load headers rows sampleSize = .error (.duplicateHeader name)) :
  name ∈ headers
  := by
  simp only [load] at h
  by_cases hheaders : headers.isEmpty = true
  · rw [if_pos hheaders] at h
    split_ifs at h <;> cases h
  · rw [if_neg hheaders] at h
    rcases exists_of_bind_eq_error h with h | ⟨schema, -, h⟩
    · have hmem := Schema.mem_of_ofColumns_error h
      rwa [map_fst_inferred] at hmem
    · split_ifs at h
      cases h

namespace Session

variable {s : Session} {d : Dataset} {filter : String} {err : SessionError}

theorem checkSize_error {size : Nat} (h : s.checkSize size = .error err) :
  err = .tooLarge size s.policy.maxUploadBytes.toNat
  := by
  rw [checkSize] at h
  split_ifs at h
  cases h
  rfl

theorem loaded_eq (held : s.dataset? = some d) :
  s.loaded = .ok d
  := by
  rw [loaded, held]

/-- Rows cannot be selected if the filter cannot be read. -/
theorem exists_filter_of_matching (h : s.matching d filter = .error err) :
  ∃ f, err = .filter f ∧ Filter.read filter d.headers s.policy = .error f
  := by
  cases hselect : Filter.select d.rows d.schema filter s.policy with
  | ok found =>
    simp only [matching, hselect] at h
    cases h
  | error f =>
    simp only [matching, hselect] at h
    cases h
    exact ⟨f, rfl, (Filter.read_of_select_error hselect).2⟩

theorem exists_filter_of_exportRows (held : s.dataset? = some d)
    (h : s.exportRows filter = .error err) :
  ∃ f, err = .filter f ∧ Filter.read filter d.headers s.policy = .error f
  := by
  rw [exportRows, loaded_eq held] at h
  rcases exists_of_bind_eq_error (x := s.matching d filter) h with h | ⟨found, -, h⟩
  · apply exists_filter_of_matching h
  · cases h

/-- A page cannot be shown if the filter cannot be read, or has no size. -/
theorem exists_filter_of_view {request : ViewRequest} (held : s.dataset? = some d)
    (h : s.view request = .error err) :
  err = .zeroPageSize ∨
    ∃ f, err = .filter f ∧ Filter.read request.filter d.headers s.policy = .error f
  := by
  rw [view, loaded_eq held] at h
  rcases exists_of_bind_eq_error (x := s.matching d request.filter) h with h | ⟨found, -, h⟩
  · exact .inr (exists_filter_of_matching h)
  · dsimp only at h
    split at h
    · cases h
    · cases h
      exact .inl rfl

/-- A table cannot be loaded from bytes that are no CSV text, or that hold no table. -/
theorem loadBytes_error {bytes : List UInt8} (h : s.loadBytes bytes = .error err) :
  (∃ fault, err = .csv fault) ∨
    ∃ t fault, err = .load fault ∧ Csv.read bytes = .ok t ∧
      ∀ name, fault = .duplicateHeader name → name ∈ t.headers
  := by
  rw [loadBytes] at h
  cases hcsv : Csv.read bytes with
  | error fault =>
    rw [hcsv] at h
    cases h
    exact .inl ⟨fault, rfl⟩
  | ok t =>
    simp only [hcsv, loadTable] at h
    cases hload : Dataset.load t.headers t.rows s.policy.sampleSize.toNat with
    | ok d =>
      rw [hload] at h
      cases h
    | error fault =>
      rw [hload] at h
      cases h
      refine .inr ⟨t, fault, rfl, rfl, ?_⟩
      rintro name rfl
      apply Dataset.mem_headers_of_load_error hload

end Session

namespace Command

variable {σ File : Type} {fs : FileSystem (StateM σ) File} {reason : String → String}
  {a : Arguments} {s : Session} {w w' : σ} {e : CommandError}

/-! ### Steps -/

/-- After a step a run goes on from its state with its result. -/
theorem run_bind_of_run {α β : Type} {x : StateM σ α} {r : α} (h : x.run w = (r, w'))
    (f : α → StateM σ β) :
  (x >>= f).run w = (f r).run w'
  := by
  have hbind : (x >>= f).run w = (f (x.run w).1).run (x.run w).2 := rfl
  rw [hbind, h]

/-- Choosing a policy takes one step at most, the reading of its file. -/
theorem read_of_choosePolicy {path? : Option String} {r : Except CommandError Policy}
    (h : (choosePolicy fs reason path?).run w = (r, w')) :
  (path? = none ∧ r = .ok .strict ∧ w' = w) ∨
    ∃ path file, path? = some path ∧ (fs.read path).run w = (file, w')
  := by
  cases path? with
  | none =>
    cases h
    exact .inl ⟨rfl, rfl, rfl⟩
  | some path =>
    rcases hread : (fs.read path).run w with ⟨file, w₁⟩
    rw [choosePolicy, readPolicy, run_bind_of_run hread] at h
    refine .inr ⟨path, file, rfl, ?_⟩
    rw [hread]
    cases file with
    | error err =>
      cases h
      rfl
    | ok bytes =>
      dsimp only at h
      cases hdecode : Text.decode bytes with
      | error index =>
        rw [hdecode] at h
        cases h
        rfl
      | ok text =>
        rw [hdecode] at h
        cases h
        rfl

/-! ### Loading the table -/

/-- The command loads its table: a policy is chosen, and the file is not too large, can be read
and holds a table. -/
inductive Prepared (fs : FileSystem (StateM σ) File) (reason : String → String) (a : Arguments)
    (w : σ) : Session → σ → Prop where
  | intro {p : Policy} {n : Nat} {bytes : List UInt8} {s : Session} {w₁ w₂ w' : σ}
    (policy : (choosePolicy fs reason a.policy?).run w = (.ok p, w₁))
    (size : (fs.size a.file).run w₁ = (.ok n, w₂))
    (limit : (Session.start p).checkSize n = .ok ())
    (read : (fs.read a.file).run w₂ = (.ok bytes, w'))
    (load : (Session.start p).loadBytes bytes = .ok s) :
    Prepared fs reason a w s w'

/-- The command fails before its table is loaded. -/
inductive Unprepared (fs : FileSystem (StateM σ) File) (reason : String → String) (a : Arguments)
    (w : σ) : CommandError → σ → Prop where
  | policyFile {path : String} {err : FileError} {w' : σ} (named : a.policy? = some path)
    (read : (fs.read path).run w = (.error err, w')) :
    Unprepared fs reason a w (.policyFile err) w'
  | policyBytes {path : String} {bytes : List UInt8} {index : Nat} {w' : σ}
    (named : a.policy? = some path) (read : (fs.read path).run w = (.ok bytes, w'))
    (decode : Text.decode bytes = .error index) :
    Unprepared fs reason a w (.policyFile .notText) w'
  | policy {path : String} {bytes : List UInt8} {text : String} {err : Policy.ReadFailure} {w' : σ}
    (named : a.policy? = some path) (read : (fs.read path).run w = (.ok bytes, w'))
    (decode : Text.decode bytes = .ok text) (policy : Policy.ofText reason text = .error err) :
    Unprepared fs reason a w (.policy err) w'
  | size {p : Policy} {err : FileError} {w₁ w' : σ}
    (policy : (choosePolicy fs reason a.policy?).run w = (.ok p, w₁))
    (size : (fs.size a.file).run w₁ = (.error err, w')) :
    Unprepared fs reason a w (.dataFile err) w'
  | limit {p : Policy} {n : Nat} {err : SessionError} {w₁ w' : σ}
    (policy : (choosePolicy fs reason a.policy?).run w = (.ok p, w₁))
    (size : (fs.size a.file).run w₁ = (.ok n, w'))
    (limit : (Session.start p).checkSize n = .error err) :
    Unprepared fs reason a w (.session err) w'
  | read {p : Policy} {n : Nat} {err : FileError} {w₁ w₂ w' : σ}
    (policy : (choosePolicy fs reason a.policy?).run w = (.ok p, w₁))
    (size : (fs.size a.file).run w₁ = (.ok n, w₂))
    (limit : (Session.start p).checkSize n = .ok ())
    (read : (fs.read a.file).run w₂ = (.error err, w')) :
    Unprepared fs reason a w (.dataFile err) w'
  | load {p : Policy} {n : Nat} {bytes : List UInt8} {err : SessionError} {w₁ w₂ w' : σ}
    (policy : (choosePolicy fs reason a.policy?).run w = (.ok p, w₁))
    (size : (fs.size a.file).run w₁ = (.ok n, w₂))
    (limit : (Session.start p).checkSize n = .ok ())
    (read : (fs.read a.file).run w₂ = (.ok bytes, w'))
    (load : (Session.start p).loadBytes bytes = .error err) :
    Unprepared fs reason a w (.session err) w'

theorem unprepared_of_choosePolicy
    (h : (choosePolicy fs reason a.policy?).run w = (.error e, w')) :
  Unprepared fs reason a w e w'
  := by
  cases hpolicy : a.policy? with
  | none =>
    rw [hpolicy] at h
    cases h
  | some path =>
    rcases hread : (fs.read path).run w with ⟨file, w₁⟩
    rw [hpolicy, choosePolicy, readPolicy, run_bind_of_run hread] at h
    cases file with
    | error err =>
      cases h
      exact .policyFile hpolicy hread
    | ok bytes =>
      dsimp only at h
      cases hdecode : Text.decode bytes with
      | error index =>
        rw [hdecode] at h
        cases h
        exact .policyBytes hpolicy hread hdecode
      | ok text =>
        rw [hdecode] at h
        cases htext : Policy.ofText reason text with
        | error err =>
          simp only [htext] at h
          cases h
          exact .policy hpolicy hread hdecode htext
        | ok p =>
          simp only [htext] at h
          cases h

/-- A command loads its table or fails before. -/
theorem prepare_cases (fs : FileSystem (StateM σ) File) (reason : String → String) (a : Arguments)
    (w : σ) :
  (∃ e w', (prepare fs reason a).run w = (.error e, w') ∧ Unprepared fs reason a w e w') ∨
    ∃ s w', (prepare fs reason a).run w = (.ok s, w') ∧ Prepared fs reason a w s w'
  := by
  rcases hpolicy : (choosePolicy fs reason a.policy?).run w with ⟨policy?, w₁⟩
  rw [prepare, run_bind_of_run hpolicy]
  cases policy? with
  | error err => exact .inl ⟨err, w₁, rfl, unprepared_of_choosePolicy hpolicy⟩
  | ok p =>
    rcases hsize : (fs.size a.file).run w₁ with ⟨size?, w₂⟩
    dsimp only
    rw [loadFile, run_bind_of_run hsize]
    cases size? with
    | error err => exact .inl ⟨.dataFile err, w₂, rfl, .size hpolicy hsize⟩
    | ok size =>
      dsimp only
      cases hlimit : (Session.start p).checkSize size with
      | error err => exact .inl ⟨.session err, w₂, rfl, .limit hpolicy hsize hlimit⟩
      | ok _ =>
        rcases hread : (fs.read a.file).run w₂ with ⟨file, w₃⟩
        dsimp only
        rw [run_bind_of_run hread]
        cases file with
        | error err => exact .inl ⟨.dataFile err, w₃, rfl, .read hpolicy hsize hlimit hread⟩
        | ok bytes =>
          dsimp only
          cases hload : (Session.start p).loadBytes bytes with
          | error err =>
            exact .inl ⟨.session err, w₃, rfl, .load hpolicy hsize hlimit hread hload⟩
          | ok s =>
            exact .inr ⟨s, w₃, rfl, .intro hpolicy hsize hlimit hread hload⟩

theorem prepared_of_run (h : (prepare fs reason a).run w = (.ok s, w')) :
  Prepared fs reason a w s w'
  := by
  rcases prepare_cases fs reason a w with ⟨_, _, hrun, _⟩ | ⟨_, _, hrun, hprepared⟩
  · cases hrun.symm.trans h
  · cases hrun.symm.trans h
    exact hprepared

theorem Prepared.run (h : Prepared fs reason a w s w') :
  (prepare fs reason a).run w = (.ok s, w')
  := by
  obtain ⟨hpolicy, hsize, hlimit, hread, hload⟩ := h
  rw [prepare, run_bind_of_run hpolicy]
  dsimp only
  rw [loadFile, run_bind_of_run hsize]
  simp only [hlimit]
  rw [run_bind_of_run hread]
  simp only [hload]
  rfl

theorem unprepared_of_run (h : (prepare fs reason a).run w = (.error e, w')) :
  Unprepared fs reason a w e w'
  := by
  rcases prepare_cases fs reason a w with ⟨_, _, hrun, hunprepared⟩ | ⟨_, _, hrun, _⟩
  · cases hrun.symm.trans h
    exact hunprepared
  · cases hrun.symm.trans h

/-- A session that was prepared has a table. -/
theorem Prepared.exists_dataset (h : Prepared fs reason a w s w') :
  ∃ d, s.dataset? = some d
  := by
  obtain ⟨-, -, -, -, hload⟩ := h
  obtain ⟨t, -, htable⟩ := Session.loadBytes_eq_ok_iff.mp hload
  obtain ⟨d, -, rfl⟩ := Session.loadTable_eq_ok_iff.mp htable
  exact ⟨d, rfl⟩

/-! ### Showing a page or exporting -/

/-- The ways in which a command fails, and the state in which it does. -/
inductive Fails (fs : FileSystem (StateM σ) File) (reason : String → String) (a : Arguments)
    (w : σ) : CommandError → σ → Prop where
  | prepare {e : CommandError} {w' : σ} (prepare : (prepare fs reason a).run w = (.error e, w')) :
    Fails fs reason a w e w'
  | view {s : Session} {err : SessionError} {w' : σ}
    (prepare : (prepare fs reason a).run w = (.ok s, w')) (named : a.exportTo? = none)
    (view : s.view a.request = .error err) :
    Fails fs reason a w (.session err) w'
  | create {s : Session} {path : String} {err : FileError} {w₀ w' : σ}
    (prepare : (prepare fs reason a).run w = (.ok s, w₀)) (named : a.exportTo? = some path)
    (create : (fs.create path).run w₀ = (.error err, w')) :
    Fails fs reason a w (.createFile err) w'
  | rows {s : Session} {path : String} {file : File} {err : SessionError} {w₀ w' : σ}
    (prepare : (prepare fs reason a).run w = (.ok s, w₀)) (named : a.exportTo? = some path)
    (create : (fs.create path).run w₀ = (.ok file, w'))
    (rows : s.exportRows a.filter = .error err) :
    Fails fs reason a w (.session err) w'
  | write {s : Session} {path : String} {file : File} {text : String} {count : Nat}
    {err : FileError} {w₀ w₁ w' : σ}
    (prepare : (prepare fs reason a).run w = (.ok s, w₀)) (named : a.exportTo? = some path)
    (create : (fs.create path).run w₀ = (.ok file, w₁))
    (rows : s.exportRows a.filter = .ok (text, count))
    (write : (fs.write file (Text.encode text)).run w₁ = (.error err, w')) :
    Fails fs reason a w (.writeFile err) w'

theorem fails_of_exportTo {path : String} {w₀ : σ}
    (hprepare : (prepare fs reason a).run w = (.ok s, w₀)) (hnamed : a.exportTo? = some path)
    (h : (exportTo fs s a.filter path).run w₀ = (.error e, w')) :
  Fails fs reason a w e w'
  := by
  rcases hcreate : (fs.create path).run w₀ with ⟨file?, w₁⟩
  rw [exportTo, run_bind_of_run hcreate] at h
  cases file? with
  | error err =>
    cases h
    exact .create hprepare hnamed hcreate
  | ok file =>
    dsimp only at h
    cases hrows : s.exportRows a.filter with
    | error err =>
      rw [hrows] at h
      cases h
      exact .rows hprepare hnamed hcreate hrows
    | ok rows =>
      obtain ⟨text, count⟩ := rows
      rcases hwrite : (fs.write file (Text.encode text)).run w₁ with ⟨written, w₂⟩
      rw [hrows] at h
      dsimp only at h
      rw [run_bind_of_run hwrite] at h
      cases written with
      | error err =>
        cases h
        exact .write hprepare hnamed hcreate hrows hwrite
      | ok _ => cases h

theorem fails_of_run (h : (perform fs reason a).run w = (.error e, w')) :
  Fails fs reason a w e w'
  := by
  rcases hprepare : (prepare fs reason a).run w with ⟨session?, w₀⟩
  rw [perform, run_bind_of_run hprepare] at h
  cases session? with
  | error err =>
    cases h
    exact .prepare hprepare
  | ok s =>
    dsimp only at h
    cases hnamed : a.exportTo? with
    | some path =>
      rw [hnamed] at h
      exact fails_of_exportTo hprepare hnamed h
    | none =>
      rw [hnamed] at h
      cases hview : s.view a.request with
      | error err =>
        simp only [hview] at h
        cases h
        exact .view hprepare hnamed hview
      | ok v =>
        simp only [hview] at h
        cases h

theorem Fails.run (h : Fails fs reason a w e w') :
  (perform fs reason a).run w = (.error e, w')
  := by
  cases h with
  | prepare hprepare =>
    rw [perform, run_bind_of_run hprepare]
    rfl
  | view hprepare hnamed hview =>
    rw [perform, run_bind_of_run hprepare]
    simp only [hnamed, hview]
    rfl
  | create hprepare hnamed hcreate =>
    rw [perform, run_bind_of_run hprepare]
    simp only [hnamed]
    rw [exportTo, run_bind_of_run hcreate]
    rfl
  | rows hprepare hnamed hcreate hrows =>
    rw [perform, run_bind_of_run hprepare]
    simp only [hnamed]
    rw [exportTo, run_bind_of_run hcreate]
    simp only [hrows]
    rfl
  | write hprepare hnamed hcreate hrows hwrite =>
    rw [perform, run_bind_of_run hprepare]
    simp only [hnamed]
    rw [exportTo, run_bind_of_run hcreate]
    simp only [hrows]
    rw [run_bind_of_run hwrite]
    rfl

/-- These are the ways in which a command fails. -/
theorem fails_iff :
  (perform fs reason a).run w = (.error e, w') ↔ Fails fs reason a w e w'
  := ⟨fails_of_run, Fails.run⟩

end Command

end TableQuery
