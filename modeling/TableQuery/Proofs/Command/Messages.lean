import TableQuery.Proofs.Command.Files
import TableQuery.Proofs.Filter.Messages

/-!
# What a failed run prints

A run that fails prints nothing but one message, on the output for errors, and its exit code is 1.
The line breaks of the message are those of the texts that it shows as they are
(`CommandError.lineBreaks_message`).  What these texts can be follows from how a command fails
(`Command.Fails`): they are what the file system and the reader of JSON say, and the names in a
message are those of columns of the table.  So the message is on one line unless it shows an
argument, a message of these two, the name of a column, or a part of the filter in which a line
ends (`Command.failed_report_is_one_line_iff`).  The file system of a store keeps to one line
(`FileStore.isOneLine_of_refuses`).
-/

namespace TableQuery

open Text

/-! ### What messages show -/

/-- The texts that the message of a usage error shows as they are. -/
def Command.UsageError.verbatim : Command.UsageError → List String
  | unknownArgument word => [word]
  | missingValue _ | missingFile | notANumber _ _ | notADirection _ => []

/-- The texts that the message of a file error shows as they are. -/
def FileError.verbatim : FileError → List String
  | other message => [message]
  | notFound | isDirectory | notDirectory | nameTooLong | zeroCharacter | notText | noSpace => []

/-- The texts that the message of a load error shows as they are. -/
def LoadError.verbatim : LoadError → List String
  | duplicateHeader name => [name]
  | empty | missingHeaders => []

/-- The texts that the message of a session error shows as they are. -/
def SessionError.verbatim : SessionError → List String
  | load e => e.verbatim
  | filter e => e.verbatim
  | noData | tooLarge _ _ | csv _ | zeroPageSize => []

/-- The texts that the message of a command error shows as they are. -/
def CommandError.verbatim : CommandError → List String
  | usage e => e.verbatim
  | policy (.notStored reason) => [reason]
  | policy (.flawed _) => []
  | policyFile e | dataFile e | createFile e | writeFile e => e.verbatim
  | session e => e.verbatim

theorem Command.UsageError.lineBreaks_message (e : Command.UsageError) :
  lineBreaks e.message = e.verbatim.flatMap lineBreaks
  := by
  have hflag : ∀ f : Flag, IsOneLine f.word ∧ IsOneLine f.operand := by
    intro f
    cases f <;> decide +kernel
  unfold message
  cases e with
  | missingValue f | notANumber f _ =>
    simp (disch := decide +kernel) only [verbatim, lineBreaks_append, lineBreaks_quoted,
      (hflag f).1.lineBreaks_eq, (hflag f).2.lineBreaks_eq, IsOneLine.lineBreaks_eq,
      List.flatMap_nil, List.nil_append]
  | notADirection _ =>
    unfold SortDirection.unknownMessage
    simp (disch := decide +kernel) only [verbatim, lineBreaks_append, lineBreaks_quoted,
      IsOneLine.lineBreaks_eq, List.flatMap_nil, List.nil_append]
  | unknownArgument _ | missingFile =>
    simp (disch := decide +kernel) only [verbatim, lineBreaks_append, IsOneLine.lineBreaks_eq,
      List.flatMap_cons, List.flatMap_nil, List.nil_append, List.append_nil]

theorem FileError.lineBreaks_message (e : FileError) :
  lineBreaks e.message = e.verbatim.flatMap lineBreaks
  := by
  unfold message
  cases e <;> simp (disch := decide +kernel) only [verbatim, IsOneLine.lineBreaks_eq,
    List.flatMap_cons, List.flatMap_nil, List.append_nil]

theorem LoadError.lineBreaks_message (e : LoadError) :
  lineBreaks e.message = e.verbatim.flatMap lineBreaks
  := by
  unfold message
  cases e <;> simp (disch := decide +kernel) only [verbatim, lineBreaks_append,
    IsOneLine.lineBreaks_eq, List.flatMap_cons, List.flatMap_nil, List.nil_append, List.append_nil]

theorem Csv.InvalidText.lineBreaks_message (e : Csv.InvalidText) :
  lineBreaks e.message = []
  := by
  unfold message
  simp (disch := decide +kernel) only [lineBreaks_append, lineBreaks_toString,
    IsOneLine.lineBreaks_eq, List.nil_append]

theorem SessionError.lineBreaks_message (e : SessionError) :
  lineBreaks e.message = e.verbatim.flatMap lineBreaks
  := by
  unfold message
  cases e with
  | load e => apply e.lineBreaks_message
  | filter e => apply e.lineBreaks_message
  | csv e => apply e.lineBreaks_message
  | noData | tooLarge _ _ | zeroPageSize =>
    simp (disch := decide +kernel) only [verbatim, Page.zeroSizeMessage, lineBreaks_append,
      lineBreaks_toString, IsOneLine.lineBreaks_eq, List.flatMap_nil, List.nil_append]

/-- The line breaks of a message are those of the texts that it shows as they are. -/
theorem CommandError.lineBreaks_message (e : CommandError) :
  lineBreaks e.message = e.verbatim.flatMap lineBreaks
  := by
  have hflaw : ∀ flaw : Policy.Flaw, IsOneLine flaw.message := by
    intro flaw
    cases flaw <;> decide +kernel
  cases e with
  | usage e => apply e.lineBreaks_message
  | session e => apply e.lineBreaks_message
  | policyFile e | dataFile e | createFile e | writeFile e => apply e.lineBreaks_message
  | policy e =>
    cases e with
    | notStored reason => simp [message, verbatim, Policy.ReadFailure.message]
    | flawed flaw => apply hflaw

/-! ### Files that cannot be used -/

/-- A file system has this reason to refuse an operation. -/
inductive FileSystem.Refuses {σ File : Type} (fs : FileSystem (StateM σ) File) :
    FileError → Prop where
  | size {path : String} {e : FileError} {w w' : σ} (h : (fs.size path).run w = (.error e, w')) :
    Refuses fs e
  | read {path : String} {e : FileError} {w w' : σ} (h : (fs.read path).run w = (.error e, w')) :
    Refuses fs e
  | create {path : String} {e : FileError} {w w' : σ}
    (h : (fs.create path).run w = (.error e, w')) : Refuses fs e
  | write {file : File} {bytes : List UInt8} {e : FileError} {w w' : σ}
    (h : (fs.write file bytes).run w = (.error e, w')) : Refuses fs e

/-- A path that cannot be followed is not shown. -/
theorem verbatim_of_pathSteps {path : String} {e : FileError} (h : pathSteps path = .error e) :
  e.verbatim = []
  := by
  unfold pathSteps at h
  split_ifs at h <;> cases h <;> rfl

namespace FileStore

variable {files : FileStore} {path : String} {steps : List String} {e : FileError}

theorem verbatim_of_walk {here : List String} (h : files.walk here steps = .error e) :
  e.verbatim = []
  := by
  induction steps generalizing here with
  | nil => cases h
  | cons step rest ih =>
    simp only [walk] at h
    split_ifs at h
    · apply ih h
    · apply ih h
    · cases h
      rfl
    · apply ih h
    · cases h
      rfl
    · cases h
      rfl

theorem verbatim_of_find (h : files.find path = .error e) :
  e.verbatim = []
  := by
  simp only [find] at h
  rcases exists_of_bind_eq_error h with h | ⟨steps, -, h⟩
  · apply verbatim_of_pathSteps h
  · rcases exists_of_bind_eq_error h with h | ⟨names, -, h⟩
    · apply verbatim_of_walk h
    · split_ifs at h
      · cases h
      · cases hfile : files.bytes? (pathOf names) with
        | some bytes =>
          rw [hfile] at h
          cases h
        | none =>
          rw [hfile] at h
          cases h
          rfl

theorem verbatim_of_target (h : files.target steps = .error e) :
  e.verbatim = []
  := by
  simp only [target] at h
  by_cases hslash : steps.getLast? = some ""
  · rw [if_pos hslash] at h
    rcases exists_of_bind_eq_error h with h | ⟨names, -, h⟩
    · apply verbatim_of_walk h
    · cases h
      rfl
  · rw [if_neg hslash] at h
    rcases exists_of_bind_eq_error h with h | ⟨names, -, h⟩
    · apply verbatim_of_walk h
    · split_ifs at h
      cases h
      rfl

/-- What a store says shows nothing as it is. -/
theorem verbatim_of_refuses (h : system.Refuses e) :
  e.verbatim = []
  := by
  cases h with
  | @size path e w w' h =>
    have hsize : w.size path = .error e := congrArg Prod.fst h
    rw [size] at hsize
    cases hfind : w.find path with
    | error e' =>
      rw [hfind] at hsize
      cases hsize
      apply verbatim_of_find hfind
    | ok found =>
      rw [hfind] at hsize
      cases hsize
  | @read path e w w' h =>
    have hread : w.read path = .error e := congrArg Prod.fst h
    rw [read] at hread
    rcases exists_of_bind_eq_error hread with hfind | ⟨found, -, hread⟩
    · apply verbatim_of_find hfind
    · cases found with
      | some bytes => cases hread
      | none =>
        cases hread
        rfl
  | @create path e w w' h =>
    rw [run_system_create, create] at h
    cases hsteps : pathSteps path with
    | error e' =>
      rw [hsteps] at h
      cases h
      apply verbatim_of_pathSteps hsteps
    | ok steps =>
      rw [hsteps] at h
      cases htarget : w.target steps with
      | error e' =>
        rw [Except.bind, htarget] at h
        cases h
        apply verbatim_of_target htarget
      | ok file =>
        rw [Except.bind, htarget] at h
        cases h
  | @write file bytes e w w' h =>
    have hwrite : (w.write file bytes).1 = .error e := congrArg Prod.fst h
    simp only [write] at hwrite
    split at hwrite
    · cases hwrite
    · cases hwrite
      rfl

/-- No message of a store breaks a line. -/
theorem isOneLine_of_refuses (h : system.Refuses e) :
  IsOneLine e.message
  := by
  apply (isOneLine_iff_of_lineBreaks_eq e.lineBreaks_message).mpr
  simp [verbatim_of_refuses h]

end FileStore

/-! ### Policies that cannot be loaded -/

/-- A text stores no policy, for which there is a reason, or one with a flaw. -/
theorem Policy.ofText_error {reason : String → String} {text : String} {e : ReadFailure}
    (h : ofText reason text = .error e) :
  e = .notStored (reason text) ∨ ∃ flaw, e = .flawed flaw
  := by
  rw [ofText] at h
  cases hstored : (Json.read? text).bind (decode .top) with
  | none =>
    rw [hstored] at h
    cases h
    exact .inl rfl
  | some p =>
    simp only [hstored] at h
    cases hcheck : p.check with
    | error flaw =>
      rw [hcheck] at h
      cases h
      exact .inr ⟨flaw, rfl⟩
    | ok p =>
      rw [hcheck] at h
      cases h

namespace Command

variable {σ File : Type} {fs : FileSystem (StateM σ) File} {reason : String → String}
  {a : Arguments} {s : Session} {d : Dataset} {err : SessionError} {w w' : σ} {e : CommandError}

/-! ### Names of columns -/

/-- The command has read a table with a column of this name from its file. -/
inductive HasColumn (fs : FileSystem (StateM σ) File) (reason : String → String) (a : Arguments)
    (w : σ) (name : String) : Prop where
  | intro {p : Policy} {n : Nat} {bytes : List UInt8} {t : Csv.RawTable} {w₁ w₂ w' : σ}
    (policy : (choosePolicy fs reason a.policy?).run w = (.ok p, w₁))
    (size : (fs.size a.file).run w₁ = (.ok n, w₂))
    (read : (fs.read a.file).run w₂ = (.ok bytes, w')) (table : Csv.read bytes = .ok t)
    (mem : name ∈ t.headers)

/-- The columns of the table of a session that was prepared are those of the table in the file. -/
theorem Prepared.exists_columns (h : Prepared fs reason a w s w') :
  ∃ d, s.dataset? = some d ∧ ∀ name ∈ d.headers, HasColumn fs reason a w name
  := by
  obtain ⟨hpolicy, hsize, -, hread, hload⟩ := h
  obtain ⟨t, hcsv, htable⟩ := Session.loadBytes_eq_ok_iff.mp hload
  obtain ⟨d, hdataset, rfl⟩ := Session.loadTable_eq_ok_iff.mp htable
  obtain ⟨-, -, -, rfl⟩ := Dataset.load_eq_ok_iff.mp hdataset
  exact ⟨_, rfl, fun name hname => .intro hpolicy hsize hread hcsv hname⟩

/-! ### Arguments that are no command -/

theorem set_ne_unknownArgument (d : Draft) (f : Flag) (value word : String) :
  d.set f value ≠ .error (.unknownArgument word)
  := by
  cases f with
  | file | filter | sort | exportTo | policy => simp [Draft.set]
  | direction =>
    rw [Draft.set]
    cases SortDirection.read? value <;> simp
  | page | size =>
    rw [Draft.set, readNumber]
    cases readCount? value.toList <;> simp [Except.map]

/-- An argument that is not known is one of the arguments. -/
theorem mem_of_readFrom_error {d : Draft} {words : List String} {word : String}
    (h : readFrom d words = .error (.unknownArgument word)) :
  word ∈ words
  := by
  fun_induction readFrom d words with
  | case1 d =>
    rw [Draft.finish] at h
    cases hfile : d.file? <;> simp [hfile] at h
  | case2 | case3 | case7 => cases h
  | case4 | case8 =>
    cases h
    apply List.mem_cons_self
  | case5 d word' value rest f hflag err hset =>
    cases h
    exact absurd hset (set_ne_unknownArgument d f value word)
  | case6 d word' value rest f hflag d' hset ih =>
    apply List.mem_cons_of_mem
    apply List.mem_cons_of_mem
    apply ih h

/-! ### Runs that fail -/

/-- The message about a run shows a line break. -/
inductive ShowsLineBreak (fs : FileSystem (StateM σ) File) (reason : String → String)
    (words : List String) (w : σ) : CommandError → Prop where
  | argument {word : String} (hword : word ∈ words) (h : ¬ IsOneLine word) :
    ShowsLineBreak fs reason words w (.usage (.unknownArgument word))
  | file {e : CommandError} {err : FileError} (herr : fs.Refuses err)
    (he : e ∈ [.policyFile err, .dataFile err, .createFile err, .writeFile err])
    (h : ¬ IsOneLine err.message) : ShowsLineBreak fs reason words w e
  | policy {a : Arguments} {path text : String} {bytes : List UInt8} {w' : σ}
    (ha : read words = .ok (.run a)) (named : a.policy? = some path)
    (file : (fs.read path).run w = (.ok bytes, w')) (decode : Text.decode bytes = .ok text)
    (h : ¬ IsOneLine (reason text)) :
    ShowsLineBreak fs reason words w (.policy (.notStored (reason text)))
  | column {a : Arguments} {name : String} (ha : read words = .ok (.run a))
    (hname : HasColumn fs reason a w name) (h : ¬ IsOneLine name) :
    ShowsLineBreak fs reason words w (.session (.load (.duplicateHeader name)))
  | filter {a : Arguments} {columns : List String} {f : Filter.FilterError}
    (ha : read words = .ok (.run a)) (hcolumns : ∀ name ∈ columns, HasColumn fs reason a w name)
    (h : f.ShowsLineBreak a.filter columns) :
    ShowsLineBreak fs reason words w (.session (.filter f))

variable {words : List String}

theorem isOneLine_message_iff :
  IsOneLine e.message ↔ ∀ text ∈ e.verbatim, IsOneLine text
  := isOneLine_iff_of_lineBreaks_eq e.lineBreaks_message

theorem ShowsLineBreak.not_isOneLine (h : ShowsLineBreak fs reason words w e) :
  ¬ IsOneLine e.message
  := by
  cases h with
  | argument _ h | column _ _ h =>
    intro hline
    apply h
    apply isOneLine_message_iff.mp hline
    simp [CommandError.verbatim, UsageError.verbatim, SessionError.verbatim, LoadError.verbatim]
  | file _ he h =>
    simp only [List.mem_cons, List.not_mem_nil, or_false] at he
    rcases he with rfl | rfl | rfl | rfl <;> apply h
  | policy _ _ _ _ h => apply h
  | filter _ _ h => apply h.not_isOneLine

theorem isOneLine_of_verbatim (h : e.verbatim = []) :
  IsOneLine e.message
  := by
  rw [isOneLine_message_iff, h]
  simp

section Commands

variable (ha : read words = .ok (.run a))
include ha

theorem showsLineBreak_of_filter {columns : List String} {p : Policy} {f : Filter.FilterError}
    (hcolumns : ∀ name ∈ columns, HasColumn fs reason a w name)
    (h : Filter.read a.filter columns p = .error f)
    (hbreak : ¬ IsOneLine (CommandError.session (.filter f)).message) :
  ShowsLineBreak fs reason words w (.session (.filter f))
  := by
  apply ShowsLineBreak.filter ha hcolumns
  by_contra hnot
  apply hbreak
  apply (Filter.isOneLine_message_iff h).mpr hnot

theorem showsLineBreak_of_unprepared (h : Unprepared fs reason a w e w')
    (hbreak : ¬ IsOneLine e.message) :
  ShowsLineBreak fs reason words w e
  := by
  cases h with
  | policyFile _ hread => exact .file (.read hread) (by simp) hbreak
  | policyBytes => exact absurd (isOneLine_of_verbatim rfl) hbreak
  | policy hnamed hread hdecode hpolicy =>
    rcases Policy.ofText_error hpolicy with rfl | ⟨flaw, rfl⟩
    · exact .policy ha hnamed hread hdecode hbreak
    · exact absurd (isOneLine_of_verbatim rfl) hbreak
  | size _ hsize => exact .file (.size hsize) (by simp) hbreak
  | limit _ _ hlimit =>
    obtain rfl := Session.checkSize_error hlimit
    exact absurd (isOneLine_of_verbatim rfl) hbreak
  | read _ _ _ hread => exact .file (.read hread) (by simp) hbreak
  | load hpolicy hsize _ hread hload =>
    rcases Session.loadBytes_error hload with ⟨fault, rfl⟩ | ⟨t, fault, rfl, hcsv, hname⟩
    · exact absurd (isOneLine_of_verbatim rfl) hbreak
    · cases fault with
      | empty | missingHeaders => exact absurd (isOneLine_of_verbatim rfl) hbreak
      | duplicateHeader name =>
        apply ShowsLineBreak.column ha (.intro hpolicy hsize hread hcsv (hname name rfl))
        intro hline
        apply hbreak
        apply isOneLine_message_iff.mpr
        simpa [CommandError.verbatim, SessionError.verbatim, LoadError.verbatim] using hline

/-- Where the message of a command is not on one line, it shows a line break. -/
theorem showsLineBreak_of_fails (h : Fails fs reason a w e w') (hbreak : ¬ IsOneLine e.message) :
  ShowsLineBreak fs reason words w e
  := by
  cases h with
  | prepare hprepare => apply showsLineBreak_of_unprepared ha (unprepared_of_run hprepare) hbreak
  | view hprepare _ hview =>
    obtain ⟨d, held, hcolumns⟩ := (prepared_of_run hprepare).exists_columns
    rcases Session.exists_filter_of_view held hview with rfl | ⟨f, rfl, hread⟩
    · exact absurd (isOneLine_of_verbatim rfl) hbreak
    · apply showsLineBreak_of_filter ha hcolumns hread hbreak
  | create _ _ hcreate => exact .file (.create hcreate) (by simp) hbreak
  | rows hprepare _ _ hrows =>
    obtain ⟨d, held, hcolumns⟩ := (prepared_of_run hprepare).exists_columns
    obtain ⟨f, rfl, hread⟩ := Session.exists_filter_of_exportRows held hrows
    apply showsLineBreak_of_filter ha hcolumns hread hbreak
  | write _ _ _ _ hwrite => exact .file (.write hwrite) (by simp) hbreak

end Commands

theorem showsLineBreak_of_usage {err : UsageError} (h : read words = .error err)
    (hbreak : ¬ IsOneLine (CommandError.usage err).message) :
  ShowsLineBreak fs reason words w (.usage err)
  := by
  have hverbatim := mt isOneLine_message_iff.mpr hbreak
  cases err with
  | unknownArgument word =>
    apply ShowsLineBreak.argument (mem_of_readFrom_error h)
    simpa [CommandError.verbatim, UsageError.verbatim] using hverbatim
  | _ => exact absurd (by simp [CommandError.verbatim, UsageError.verbatim]) hverbatim

/-- Where the message of a run is not on one line, it shows a line break. -/
theorem showsLineBreak_of_respond (h : ((respond fs reason words).run w).1 = .error e)
    (hbreak : ¬ IsOneLine e.message) :
  ShowsLineBreak fs reason words w e
  := by
  rw [respond] at h
  cases hread : read words with
  | error err =>
    rw [hread] at h
    cases h
    apply showsLineBreak_of_usage hread hbreak
  | ok command =>
    rw [hread] at h
    cases command with
    | help => cases h
    | run a => apply showsLineBreak_of_fails hread (fails_of_run (Prod.ext h rfl)) hbreak

/-- A run that fails prints nothing but one message on the output for errors, and its exit code is
1.  The lines of what is printed there end where they do in the texts that the message shows as they
are, and after the message.  So it is one line exactly if no line ends in an argument that is not
known, in what the file system or the reader of JSON says, in the name of a column that is repeated,
or in what is shown of a filter and of the columns. -/
theorem failed_report_is_one_line_iff (h : ((execute fs reason words).run w).1.code ≠ 0) :
  ∃ e, ((respond fs reason words).run w).1 = .error e ∧
    ((execute fs reason words).run w).1 = ⟨"", "cq-cli error: " ++ e.message ++ "\n", 1⟩ ∧
    lineBreaks ("cq-cli error: " ++ e.message ++ "\n")
      = e.verbatim.flatMap lineBreaks ++ ['\n'] ∧
    (IsOneLine ("cq-cli error: " ++ e.message) ↔ ¬ ShowsLineBreak fs reason words w e)
  := by
  have hreport : ((execute fs reason words).run w).1
      = .of ((respond fs reason words).run w).1 := rfl
  rw [hreport] at h ⊢
  cases hresult : ((respond fs reason words).run w).1 with
  | ok text =>
    rw [hresult] at h
    exact absurd rfl h
  | error e =>
    have hline : lineBreaks ("cq-cli error: " ++ e.message) = lineBreaks e.message := by
      simp (disch := decide +kernel) only [lineBreaks_append, IsOneLine.lineBreaks_eq,
        List.nil_append]
    refine ⟨e, rfl, rfl, ?_, ?_⟩
    · have hend : lineBreaks "\n" = ['\n'] := by decide +kernel
      rw [lineBreaks_append, hline, hend, e.lineBreaks_message]
    · rw [IsOneLine, hline]
      constructor
      · intro hone hshows
        apply hshows.not_isOneLine hone
      · intro hnot
        by_contra hbreak
        apply hnot
        apply showsLineBreak_of_respond hresult hbreak

/-- A filter that names no column of a table is answered with the names of the columns, and one of
them can be of two lines. -/
theorem failed_report_is_one_line_iff_of_column :
  let words := ["--file", "t", "--filter", "c"]
  let files := FileStore.ofList [] [("t", Text.encode "\"a\nb\"\n1\n")]
  let report := ((execute FileStore.system id words).run files).1
  report = ⟨"", "cq-cli error: Unknown column 'c' at position 0. Available columns: [a\nb]\n", 1⟩ ∧
    lineBreaks report.errors = ['\n', '\n'] ∧
    ∃ e, ((respond FileStore.system id words).run files).1 = .error e ∧
      ShowsLineBreak FileStore.system id words files e
  := by
  intro words files report
  let a : Arguments :=
    { file := "t", filter := "c", sort? := none, direction := .ascending, page := 0,
      size? := none, exportTo? := none, policy? := none }
  let session : Session :=
    ⟨.strict, some ⟨.inferred ["a\nb"] [.ofList [("a\nb", "1")]] 100, [.ofList [("a\nb", .int 1)]]⟩⟩
  let err : Filter.FilterError := .parse (.unknownColumn ⟨.identifier, "c", none, 0⟩ ["a\nb"])
  have hwords : read words = .ok (.run a) := by decide +kernel
  have hprepare : (prepare FileStore.system id a).run files = (.ok session, files) := by
    have hfind : files.find "t" = .ok (some (Text.encode "\"a\nb\"\n1\n")) := by decide +kernel
    apply prepare_system (a := a) rfl hfind (by decide +kernel)
    decide +kernel
  have hview : session.view a.request = .error (.filter err) := by
    have hselect : Filter.select [.ofList [("a\nb", .int 1)]]
        (.inferred ["a\nb"] [.ofList [("a\nb", "1")]] 100) "c" .strict = .error err := by
      decide +kernel
    have hfilter : a.request.filter = "c" := rfl
    simp only [session, Session.view, Session.loaded, Session.matching, hfilter, bind, Except.bind,
      hselect, Except.mapError]
  have hrespond : (respond FileStore.system id words).run files
      = (.error (.session (.filter err)), files) := by
    simp only [respond, hwords]
    apply (Fails.view hprepare rfl hview).run
  have hcode : report.code ≠ 0 := by
    simp only [report, execute, run_bind_of_run hrespond]
    decide
  obtain ⟨e, herror, hreport, hbreaks, hline⟩ := failed_report_is_one_line_iff hcode
  obtain rfl : CommandError.session (.filter err) = e := by
    rw [hrespond] at herror
    apply Except.error.inj herror
  have htext : "cq-cli error: " ++ (CommandError.session (.filter err)).message ++ "\n"
      = "cq-cli error: Unknown column 'c' at position 0. Available columns: [a\nb]\n" := by
    decide +kernel
  have hshown : ["c", "a\nb"].flatMap lineBreaks ++ ['\n'] = ['\n', '\n'] := by decide +kernel
  have htwo := hbreaks.trans hshown
  refine ⟨hreport.trans (by rw [htext]), ?_, _, by rw [hrespond], ?_⟩
  · have herrors := congrArg Report.errors hreport
    rw [herrors]
    exact htwo
  · by_contra hnot
    have hone := hline.mpr hnot
    rw [lineBreaks_append, hone.lineBreaks_eq] at htwo
    revert htwo
    decide +kernel

end Command

end TableQuery
