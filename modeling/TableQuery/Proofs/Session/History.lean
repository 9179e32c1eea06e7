import Mathlib.Data.List.Induction
import TableQuery.Session.Calls
import TableQuery.Proofs.Table.Loading

/-!
# What a session holds

`Session.Call.Builds p c d` says which table `d` a call `c` loads under the policy `p`; a call
of another kind, or a load that fails, builds none.  A call either builds the table that the
session holds afterwards, or resets the session, or leaves it as it was
(`Session.holds_call_iff`), so after a list of calls the session holds what the last successful
load since the last reset has built (`Session.holds_run_iff`).
-/

namespace TableQuery.Session

/-! ### Tables built by calls -/

/-- The size is within the limit of uploads and the bytes hold a table that is loaded as `d`. -/
structure BuildsFromBytes (p : Policy) (size : Nat) (bytes : List UInt8) (d : Dataset) : Prop where
  size_le : size ≤ p.maxUploadBytes.toNat
  load : ∃ t, Csv.read bytes = .ok t ∧
    Dataset.load t.headers t.rows p.sampleSize.toNat = .ok d

/-- The call loads the table `d` under the policy `p`. -/
def Call.Builds (p : Policy) (c : Call) (d : Dataset) : Prop :=
  match c with
  | .loadText text => BuildsFromBytes p (Text.encode text).length (Text.encode text) d
  | .loadFile (.ok size) (.ok bytes) => BuildsFromBytes p size bytes d
  | .loadTable t => Dataset.load t.headers t.rows p.sampleSize.toNat = .ok d
  | .loadFile (.ok _) (.error _) | .loadFile (.error _) _ | .view _ | .exportRows _ _ | .reset =>
    False

theorem BuildsFromBytes.unique {p : Policy} {size : Nat} {bytes : List UInt8} {d d' : Dataset}
    (h : BuildsFromBytes p size bytes d) (h' : BuildsFromBytes p size bytes d') :
  d = d'
  := by
  obtain ⟨t, hread, hload⟩ := h.load
  obtain ⟨t', hread', hload'⟩ := h'.load
  obtain rfl := Except.ok.inj (hread.symm.trans hread')
  apply Except.ok.inj (hload.symm.trans hload')

/-- A call builds one table at most. -/
theorem Call.Builds.unique {p : Policy} {c : Call} {d d' : Dataset} (h : c.Builds p d)
    (h' : c.Builds p d') :
  d = d'
  := by
  cases c with
  | loadText text => apply BuildsFromBytes.unique h h'
  | loadFile size file =>
    cases size with
    | error e => cases h
    | ok size =>
      cases file with
      | error e => cases h
      | ok bytes => apply BuildsFromBytes.unique h h'
  | loadTable t => apply Except.ok.inj (h.symm.trans h')
  | view q | exportRows filter sink | reset => cases h

/-- Whether a call is to load a table. -/
def Call.isLoad : Call → Bool
  | .loadText _ | .loadFile _ _ | .loadTable _ => true
  | .view _ | .exportRows _ _ | .reset => false

/-- `d` is the table that the last load since the last reset has built which built one. -/
def LastBuilt (p : Policy) (calls : List Call) (d : Dataset) : Prop :=
  ∃ before c after, calls = before ++ c :: after ∧ c.Builds p d ∧
    ∀ c' ∈ after, c' ≠ .reset ∧ ∀ d', ¬ c'.Builds p d'

/-- What is built last after one more call. -/
theorem lastBuilt_concat {p : Policy} {calls : List Call} {c : Call} {d : Dataset} :
  LastBuilt p (calls ++ [c]) d
    ↔ c.Builds p d ∨ (c ≠ .reset ∧ ∀ d', ¬ c.Builds p d') ∧ LastBuilt p calls d
  := by
  constructor
  · rintro ⟨before, c', after, heq, hbuilds, hafter⟩
    induction after using List.reverseRecOn with
    | nil =>
      obtain ⟨-, hc⟩ := List.append_inj' heq rfl
      obtain rfl := List.singleton_inj.mp hc
      exact .inl hbuilds
    | append_singleton after c'' _ =>
      rw [← List.cons_append, ← List.append_assoc] at heq
      obtain ⟨rfl, hc⟩ := List.append_inj' heq rfl
      obtain rfl := List.singleton_inj.mp hc
      obtain ⟨hcalls, hlast⟩ := List.forall_mem_append.mp hafter
      exact .inr ⟨hlast c List.mem_cons_self, before, c', after, rfl, hbuilds, hcalls⟩
  · rintro (hbuilds | ⟨hc, before, c', after, rfl, hbuilds, hafter⟩)
    · use calls, c, []
      simp [hbuilds]
    · use before, c', after ++ [c]
      simp only [List.append_assoc, List.cons_append, hbuilds, true_and]
      apply List.forall_mem_append.mpr ⟨hafter, List.forall_mem_singleton.mpr hc⟩

/-! ### One call -/

variable {s : Session}

/-- A load succeeds in building a table or fails. -/
theorem loadTable_eq_ok_iff {t : Csv.RawTable} {s' : Session} :
  s.loadTable t = .ok s'
    ↔ ∃ d, Dataset.load t.headers t.rows s.policy.sampleSize.toNat = .ok d ∧
        s' = { s with dataset? := some d }
  := by
  rw [loadTable]
  cases Dataset.load t.headers t.rows s.policy.sampleSize.toNat <;> simp [eq_comm]

theorem checkSize_eq_ok_iff {size : Nat} :
  s.checkSize size = .ok () ↔ size ≤ s.policy.maxUploadBytes.toNat
  := by
  rw [checkSize, ← Nat.not_lt]
  split <;> simp [*]

theorem loadBytes_eq_ok_iff {bytes : List UInt8} {s' : Session} :
  s.loadBytes bytes = .ok s'
    ↔ ∃ t, Csv.read bytes = .ok t ∧ s.loadTable t = .ok s'
  := by
  rw [loadBytes]
  cases Csv.read bytes <;> simp

/-- Bytes are loaded if their size is within the limit and they hold a table. -/
theorem exists_buildsFromBytes_iff {size : Nat} {bytes : List UInt8} {s' : Session} :
  s.checkSize size = .ok () ∧ s.loadBytes bytes = .ok s'
    ↔ ∃ d, BuildsFromBytes s.policy size bytes d ∧ s' = { s with dataset? := some d }
  := by
  simp only [checkSize_eq_ok_iff, loadBytes_eq_ok_iff, loadTable_eq_ok_iff]
  constructor
  · rintro ⟨hsize, t, hread, d, hload, rfl⟩
    exact ⟨d, ⟨hsize, t, hread, hload⟩, rfl⟩
  · rintro ⟨d, ⟨hsize, t, hread, hload⟩, rfl⟩
    exact ⟨hsize, t, hread, d, hload, rfl⟩

theorem mapError_eq_ok_iff {α ε δ : Type} {f : ε → δ} {r : Except ε α} {a : α} :
  r.mapError f = .ok a ↔ r = .ok a
  := by
  cases r <;> simp [Except.mapError]

theorem seq_eq_ok_iff {ε β : Type} {x : Except ε Unit} {y : Except ε β} {b : β} :
  (x >>= fun _ => y) = .ok b ↔ x = .ok () ∧ y = .ok b
  := by
  cases x <;> simp [bind, Except.bind]

theorem loadText_eq_ok_iff {text : String} {s' : Session} :
  s.loadText text = .ok s'
    ↔ ∃ d, BuildsFromBytes s.policy (Text.encode text).length (Text.encode text) d ∧
        s' = { s with dataset? := some d }
  := seq_eq_ok_iff.trans exists_buildsFromBytes_iff

/-- A file is loaded if its size and its bytes can be had and are loaded. -/
theorem loadFile_eq_ok_iff {size? : Except FileError Nat} {file : Except FileError (List UInt8)}
    {s' : Session} :
  s.loadFile size? file = .ok s'
    ↔ ∃ size bytes, size? = .ok size ∧ file = .ok bytes ∧ s.checkSize size = .ok () ∧
        s.loadBytes bytes = .ok s'
  := by
  cases size? with
  | error e => simp [loadFile, bind, Except.bind, Except.mapError]
  | ok size =>
    apply seq_eq_ok_iff.trans
    cases file with
    | error e => simp [bind, Except.bind, Except.mapError]
    | ok bytes =>
      apply (and_congr mapError_eq_ok_iff mapError_eq_ok_iff).trans
      simp

/-- A load either builds a table, which the session then holds, or fails and leaves the session
as it was. -/
theorem call_load (s : Session) {c : Call} (hc : c.isLoad = true) :
  (∃ d, c.Builds s.policy d ∧
      s.call c = { session := { s with dataset? := some d }, reply := .ok .loaded })
    ∨ (∀ d, ¬ c.Builds s.policy d) ∧ ∃ e, s.call c = { session := s, reply := .error e }
  := by
  obtain ⟨r, hcall, hr⟩ : ∃ r, s.call c = s.afterLoad r ∧
      ∀ s', r = .ok s' ↔ ∃ d, c.Builds s.policy d ∧ s' = { s with dataset? := some d } := by
    cases c with
    | loadText text =>
      refine ⟨_, rfl, fun s' => ?_⟩
      rw [mapError_eq_ok_iff]
      apply loadText_eq_ok_iff
    | loadFile size? file =>
      refine ⟨_, rfl, fun s' => ?_⟩
      rw [loadFile_eq_ok_iff]
      cases size? with
      | error e => simp [Call.Builds]
      | ok size =>
        cases file with
        | error e => simp [Call.Builds]
        | ok bytes => simpa [Call.Builds] using exists_buildsFromBytes_iff
    | loadTable t =>
      refine ⟨_, rfl, fun s' => ?_⟩
      rw [mapError_eq_ok_iff]
      apply loadTable_eq_ok_iff
    | view q | exportRows filter sink | reset => cases hc
  rw [hcall]
  cases r with
  | ok s' =>
    obtain ⟨d, hbuilds, rfl⟩ := (hr s').mp rfl
    exact .inl ⟨d, hbuilds, rfl⟩
  | error e =>
    refine .inr ⟨fun d hbuilds => ?_, e, rfl⟩
    cases (hr _).mpr ⟨d, hbuilds, rfl⟩

/-- A call that is neither a load nor a reset changes nothing and builds nothing. -/
theorem session_call_of_not_isLoad {c : Call} (hload : c.isLoad = false) (hreset : c ≠ .reset) :
  (s.call c).session = s
  := by
  cases c with
  | view q => rfl
  | exportRows filter sink =>
    rw [call, exportInto]
    split <;> rfl
  | reset => contradiction
  | loadText text | loadFile size file | loadTable t => cases hload

theorem isLoad_of_builds {p : Policy} {c : Call} {d : Dataset} (h : c.Builds p d) :
  c.isLoad = true
  := by
  cases c with
  | loadText text | loadFile size file | loadTable t => rfl
  | view q | exportRows filter sink | reset => cases h

/-- What a session holds after a call: what the call has built, or, if it has built nothing and
is no reset, what it held before. -/
theorem holds_call_iff (s : Session) (c : Call) (d : Dataset) :
  (s.call c).session.dataset? = some d
    ↔ c.Builds s.policy d ∨
      (c ≠ .reset ∧ ∀ d', ¬ c.Builds s.policy d') ∧ s.dataset? = some d
  := by
  cases hload : c.isLoad with
  | true =>
    have hreset : c ≠ .reset := by
      rintro rfl
      cases hload
    rcases call_load s hload with ⟨d', hbuilds, hcall⟩ | ⟨hnone, e, hcall⟩
    · have hunique : d' = d ↔ c.Builds s.policy d := by
        constructor
        · rintro rfl
          exact hbuilds
        · exact hbuilds.unique
      have hsome : ¬ ∀ d', ¬ c.Builds s.policy d' := fun hnone => hnone d' hbuilds
      simp [hcall, hunique, hsome]
    · simp [hcall, hnone, hreset]
  | false =>
    have hnone : ∀ d', ¬ c.Builds s.policy d' := by
      intro d' hbuilds
      rw [isLoad_of_builds hbuilds] at hload
      cases hload
    by_cases hreset : c = .reset
    · subst hreset
      simp [call, reset, hnone]
    · simp [session_call_of_not_isLoad hload hreset, hnone, hreset]

theorem policy_call (s : Session) (c : Call) :
  (s.call c).session.policy = s.policy
  := by
  cases hload : c.isLoad with
  | true =>
    rcases call_load s hload with ⟨d, -, hcall⟩ | ⟨-, e, hcall⟩ <;> rw [hcall]
  | false =>
    by_cases hreset : c = .reset
    · subst hreset
      rfl
    · rw [session_call_of_not_isLoad hload hreset]

/-! ### Lists of calls -/

theorem run_concat (s : Session) (calls : List Call) (c : Call) :
  s.run (calls ++ [c]) = ((s.run calls).call c).session
  := by
  simp [run]

theorem policy_run (s : Session) (calls : List Call) :
  (s.run calls).policy = s.policy
  := by
  induction calls using List.reverseRecOn with
  | nil => rfl
  | append_singleton calls c ih => rw [run_concat, policy_call, ih]

/-- A session holds what the last successful load since the last reset has built. -/
theorem holds_run_iff (p : Policy) (calls : List Call) (d : Dataset) :
  ((start p).run calls).dataset? = some d ↔ LastBuilt p calls d
  := by
  induction calls using List.reverseRecOn with
  | nil => simp [run, start, LastBuilt]
  | append_singleton calls c ih =>
    rw [run_concat, holds_call_iff, lastBuilt_concat, ih, policy_run]
    rfl

theorem Call.Builds.wellFormed {p : Policy} {c : Call} {d : Dataset} (h : c.Builds p d) :
  d.WellFormed
  := by
  have hbytes : ∀ size bytes, BuildsFromBytes p size bytes d → d.WellFormed := by
    rintro size bytes ⟨-, t, -, hload⟩
    apply Dataset.wellFormed_of_load hload
  cases c with
  | loadText text => apply hbytes _ _ h
  | loadFile size file =>
    cases size with
    | error e => cases h
    | ok size =>
      cases file with
      | error e => cases h
      | ok bytes => apply hbytes _ _ h
  | loadTable t => apply Dataset.wellFormed_of_load h
  | view q | exportRows filter sink | reset => cases h

/-- The table that a session holds after a list of calls is well formed. -/
theorem wellFormed_of_run {p : Policy} {calls : List Call} {d : Dataset}
    (h : ((start p).run calls).dataset? = some d) :
  d.WellFormed
  := by
  obtain ⟨before, c, after, -, hbuilds, -⟩ := (holds_run_iff p calls d).mp h
  apply hbuilds.wellFormed

/-- A session has data exactly if it has column names. -/
theorem hasData_run_iff (p : Policy) (calls : List Call) :
  ((start p).run calls).hasData = true ↔ ((start p).run calls).headers ≠ []
  := by
  cases h : ((start p).run calls).dataset? with
  | none => simp [hasData, headers, h]
  | some d => simp [hasData, headers, h, (wellFormed_of_run h).headers_ne_nil]

/-- A load succeeds exactly if it builds a table. -/
theorem reply_load_iff (s : Session) {c : Call} (hc : c.isLoad = true) :
  (s.call c).reply = .ok .loaded ↔ ∃ d, c.Builds s.policy d
  := by
  rcases call_load s hc with ⟨d, hbuilds, hcall⟩ | ⟨hnone, e, hcall⟩
  · simp only [hcall, true_iff]
    use d
  · simp [hcall, hnone]

/-- A load that fails leaves the session as it was. -/
theorem session_call_of_load_error {c : Call} (hc : c.isLoad = true) {e : CallError}
    (h : (s.call c).reply = .error e) :
  (s.call c).session = s
  := by
  rcases call_load s hc with ⟨d, -, hcall⟩ | ⟨-, e', hcall⟩
  · rw [hcall] at h
    cases h
  · rw [hcall]

/-- An export that fails before it writes has written nothing. -/
theorem written_export {filter : String} {sink : Sink} {e : SessionError}
    (h : (s.call (.exportRows filter sink)).reply = .error (.session e)) :
  (s.call (.exportRows filter sink)).written = []
  := by
  rw [call, exportInto] at h ⊢
  cases hrows : s.exportRows filter with
  | error e' => rfl
  | ok rows =>
    simp only [hrows] at h
    cases hsink : (sink (Text.encode rows.1)).2 <;> simp [hsink, Except.map, Except.mapError] at h

/-- After any list of calls a session holds the table that the last successful load since the
last reset has built, which is well formed, and it has column names exactly if it has a table.
Whatever the next call is, a load succeeds exactly if it builds a table and leaves the session as
it is if it fails, as a view and an export always do, and an export that fails for want of data
or because of its filter has written nothing. -/
theorem history_of_run (p : Policy) (calls : List Call) :
  let s := (start p).run calls
  (∀ d, s.dataset? = some d ↔ LastBuilt p calls d) ∧
    (∀ d, s.dataset? = some d → d.WellFormed) ∧
    (s.hasData = true ↔ s.headers ≠ []) ∧
    (∀ c, c.isLoad = true →
      ((s.call c).reply = .ok .loaded ↔ ∃ d, c.Builds p d) ∧
      ∀ e, (s.call c).reply = .error e → (s.call c).session = s) ∧
    (∀ q, (s.call (.view q)).session = s) ∧
    ∀ filter sink, (s.call (.exportRows filter sink)).session = s ∧
      ∀ e, e = .noData ∨ (∃ e', e = .filter e') →
        (s.call (.exportRows filter sink)).reply = .error (.session e) →
        (s.call (.exportRows filter sink)).written = []
  := by
  refine ⟨holds_run_iff p calls, fun d => wellFormed_of_run, hasData_run_iff p calls, ?_, ?_, ?_⟩
  · intro c hc
    constructor
    · rw [reply_load_iff _ hc, policy_run]
      rfl
    · intro e
      apply session_call_of_load_error hc
  · intro q
    rfl
  · intro filter sink
    constructor
    · apply session_call_of_not_isLoad rfl (by simp)
    · intro e _ h
      apply written_export h

end TableQuery.Session
