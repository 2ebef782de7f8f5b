import BoundSql.Client.Recording
import BoundSql.Client.TypedRow
import BoundSql.Proofs.Session.Protocol
import BoundSql.Proofs.Text.Boundaries

/-! What the log shows of a statement: the longest beginning of its text within a number of bytes,
which ends between characters.  All entries of all operations show that of the statement that was
sent (`loggedSql_longest`). -/

namespace BoundSql

variable {σ α β ρ : Type}

/-- The text that an entry of the log shows of its statement. -/
def LogEvent.sql : LogEvent → String
  | .statement _ _ sql => sql
  | .failure _ sql _ => sql

theorem loggedSql_eq_self_iff {sql : String} :
    loggedSql sql = sql ↔ (Text.encode sql).length ≤ 200 := Text.withinBytes_eq_self_iff

/-- The log entries of a statement that is sent, and of its failure if there is one. -/
theorem Request.log_outcome [DriverRow ρ] (r : Request α ρ β) (s : Statement α)
    (answer : Except Error r.Answer) (after : σ) :
    let before : LogEvent := .statement r.operation s.args.length (loggedSql s.sql)
    (r.outcome s answer after).log = [before] ∨
      ∃ error, (r.outcome s answer after).log =
        [before, .failure r.operation (loggedSql s.sql) error] := by
  unfold outcome
  split
  · exact .inr ⟨_, rfl⟩
  · exact .inl rfl

/-- The log shows a statement up to the last boundary between characters within 200 bytes, which is
the longest beginning of it that is a text within the limit.  A text within the limit is shown as it
is, of a longer one at least 197 bytes are shown, and what is shown would be shown as it is.  Every
entry of an operation shows that beginning of what the operation sent. -/
theorem loggedSql_longest :
    (∀ sql : String,
      let shown := loggedSql sql
      Text.decode? (Text.cutBytes 200 (Text.encode sql)) = some shown ∧
      Text.Longest 200 sql shown ∧
      (shown = sql ↔ (Text.encode sql).length ≤ 200) ∧
      (200 < (Text.encode sql).length → 197 ≤ (Text.encode shown).length) ∧
      loggedSql shown = shown) ∧
    ∀ {σ α ρ β : Type} [HasNull α] [DriverRow ρ] (r : Request α ρ β) (q : Query α)
      (client : Client σ α ρ) (state : σ),
      let log := (r.run q client state).log
      let sent := (r.run q client.watched (state, [])).client.2
      (∀ entry ∈ log, ∃ s ∈ sent, entry.sql = loggedSql s.sql) ∧
      ∀ s ∈ sent, ∃ entry ∈ log, entry.sql = loggedSql s.sql := by
  refine ⟨fun sql => ?_, fun r q client state => ?_⟩
  · have hlongest : Text.Longest 200 sql (loggedSql sql) := Text.longest_withinBytes 200 sql
    refine ⟨?_, hlongest, loggedSql_eq_self_iff, fun h => ?_, ?_⟩
    · exact Text.decode?_eq_some_iff.mpr (Text.cutBytes_encode 200 sql)
    · have hlost := Text.lt_length_withinBytes h
      rw [loggedSql, loggedBytes]
      omega
    · exact loggedSql_eq_self_iff.mpr hlongest.fits
  · cases h : r.compiled q with
    | error e =>
      rw [r.run_error h, r.run_error h]
      exact ⟨nofun, nofun⟩
    | ok s =>
      rw [r.run_ok h, r.run_ok h, r.exchange_watched, Request.client_outcome]
      have hlog := r.log_outcome s (r.exchange client s state).1 (r.exchange client s state).2
      have hsent : ([] ++ [s] : List (Statement _)) = [s] := rfl
      simp only [hsent, List.mem_singleton, exists_eq_left, forall_eq]
      rcases hlog with hlog | ⟨error, hlog⟩
      · rw [hlog]
        simp [LogEvent.sql]
      · rw [hlog]
        simp [LogEvent.sql]

/-- Characters of four bytes each. -/
def faces (n : Nat) : String := String.ofList (List.replicate n '😀')

theorem toList_faces (n : Nat) : (faces n).toList = List.replicate n '😀' := String.toList_ofList

def selectFaces : Query Value := (Query.ofTable "t").build [.select ["'x" ++ faces 60 ++ "'"]]

/-- The 200th byte is inside of a character, and the client fails, so that there are two entries. -/
theorem loggedSql_longest_faces :
    let sql := "SELECT 'x" ++ faces 60 ++ "' FROM t"
    let shown := "SELECT 'x" ++ faces 47
    let client : Client _ Value TypedRow := .recording 0 (some .noRow)
    200 < (Text.encode sql).length ∧ loggedSql sql = shown ∧
      197 ≤ (Text.encode (loggedSql sql)).length ∧ (Text.encode shown).length = 197 ∧
      loggedSql sql ≠ sql ∧
      (selectFaces.getRows client []).log.length = 2 ∧
      ∀ entry ∈ (selectFaces.getRows client []).log, entry.sql = shown := by
  intro sql shown client
  obtain ⟨hbeginnings, hruns⟩ := loggedSql_longest
  obtain ⟨_, _, hself, hlong, _⟩ := hbeginnings sql
  have hlength : 200 < (Text.encode sql).length := by decide +kernel
  have hshown : loggedSql sql = shown := by
    rw [loggedSql, Text.withinBytes, String.toList_append, String.toList_append, toList_faces]
    decide +kernel
  let request : Request Value TypedRow Unit := .getRows
  have hcompile : request.compiled selectFaces = .ok ⟨sql, []⟩ := by
    decide +kernel
  obtain ⟨hentries, _⟩ := hruns request selectFaces client []
  have hsent : (request.run selectFaces client.watched ([], [])).client.2 = [⟨sql, []⟩] := by
    rw [Request.run_ok hcompile]
    rfl
  rw [hsent] at hentries
  refine ⟨hlength, hshown, hlong hlength, by decide +kernel, ?_, ?_, fun entry hentry => ?_⟩
  · intro h
    exact absurd (hself.mp h) (Nat.not_le.mpr hlength)
  · have hrun := Request.run_ok hcompile client []
    rw [Request.run] at hrun
    rw [hrun]
    rfl
  · obtain ⟨s, hs, hentry⟩ := hentries entry hentry
    rw [hentry, List.mem_singleton.mp hs, ← hshown]

end BoundSql
