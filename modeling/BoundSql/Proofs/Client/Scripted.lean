import BoundSql.Client.Scripted
import BoundSql.Proofs.Text.Numerals
import BoundSql.Proofs.Text.Utf8
import Mathlib.Tactic.Ring

/-! What a scripted server takes from statements.  The bytes that it binds for a statement stand for
the values of the statement (`ScriptedServer.bound_values`), and over a sequence of statements it
prepares those that can be sent, in their order, each with the next reply
(`ScriptedServer.prepared_run`). -/

namespace BoundSql

/-! ### Bytes -/

/-- The number that bytes stand for, the highest first. -/
def ofBytes (bytes : List UInt8) : Nat := bytes.foldl (fun n b => n * 256 + b.toNat) 0

theorem foldl_wordBytes (count n init : Nat) :
    (wordBytes count n).foldl (fun n b => n * 256 + b.toNat) init =
      init * 256 ^ count + n % 256 ^ count := by
  induction count generalizing init with
  | zero => simp [wordBytes, Nat.mod_one]
  | succ count ih =>
    have hbyte : (UInt8.ofNat (n / 256 ^ count)).toNat = n / 256 ^ count % 256 := by
      simp
    have hsplit : n % 256 ^ (count + 1) =
        n / 256 ^ count % 256 * 256 ^ count + n % 256 ^ count := by
      rw [pow_succ, Nat.mod_mul, Nat.mul_comm, Nat.add_comm]
    rw [wordBytes, List.foldl_cons, ih, Nat.pow_eq, hbyte, hsplit]
    ring

/-- A number that fits its bytes reads back from them. -/
theorem ofBytes_wordBytes {count n : Nat} (h : n < 256 ^ count) :
    ofBytes (wordBytes count n) = n := by
  rw [ofBytes, foldl_wordBytes, Nat.zero_mul, Nat.zero_add, Nat.mod_eq_of_lt h]

/-- The value that bytes stand for as a value of a type; no bytes stand for NULL. -/
def Value.ofBytes? : ColumnType → Option (List UInt8) → Option Value
  | _, none => some .null
  | .int8, some bytes => some (.int8 (UInt64.ofNat (ofBytes bytes)).toInt64)
  | .int4, some bytes => some (.int4 (UInt32.ofNat (ofBytes bytes)).toInt32)
  | .bool, some bytes => some (.bool (bytes != [0]))
  | .text, some bytes | .varchar, some bytes | .unknown, some bytes =>
    (Text.decode? bytes).map .text
  | .other _, some _ => none

/-- A value reads back from its bytes as a value of every type that it fits. -/
theorem Value.ofBytes?_bytes? {v : Value} {type : ColumnType} (h : v.fits type) :
    ofBytes? type v.bytes? = some v := by
  have htext : ∀ s, (Text.decode? (Text.encode s)).map Value.text = some (.text s) := fun s => by
    rw [Text.decode?_eq_some_iff.mpr rfl, Option.map_some]
  cases v with
  | int8 n =>
    cases type <;> cases h
    have hn : ofBytes (wordBytes 8 n.toUInt64.toNat) = n.toUInt64.toNat :=
      ofBytes_wordBytes n.toUInt64.toNat_lt
    rw [bytes?, ofBytes?, hn, UInt64.ofNat_toNat, Int64.toInt64_toUInt64]
  | int4 n =>
    cases type <;> cases h
    have hn : ofBytes (wordBytes 4 n.toUInt32.toNat) = n.toUInt32.toNat :=
      ofBytes_wordBytes n.toUInt32.toNat_lt
    rw [bytes?, ofBytes?, hn, UInt32.ofNat_toNat, Int32.toInt32_toUInt32]
  | text s => cases type <;> first | exact htext s | cases h
  | bool b =>
    cases type <;> cases h
    cases b <;> rfl
  | null => cases type <;> rfl

/-! ### Completed statements -/

/-- A completion text ends with the number of changed rows. -/
theorem affectedRows_append (words : List Char) (n : Nat) :
    affectedRows (String.ofList (words ++ ' ' :: (toString n).toList)) =
      if n ≤ Text.maxWord64 then n else 0 := by
  have hblank : ∀ c ∈ (toString n).toList.reverse, decide (c ≠ ' ') := by
    intro c hc
    have hdigit := Text.isDigit_of_mem_toString (List.mem_reverse.mp hc)
    rw [decide_eq_true_eq]
    rintro rfl
    cases hdigit
  have hlast : ((words ++ ' ' :: (toString n).toList).reverse.takeWhile (· ≠ ' ')).reverse =
      (toString n).toList := by
    rw [List.reverse_append, List.reverse_cons, List.append_assoc,
      List.takeWhile_append_of_pos hblank]
    simp
  rw [affectedRows, String.toList_ofList, hlast, Text.unsigned?_toString, Text.upTo]
  split <;> rfl

/-! ### One statement -/

theorem fits_of_misfit? {args : List Value} {params : List ColumnType}
    (h : misfit? args params = none) : ∀ p ∈ args.zip params, p.1.fits p.2 := by
  intro p hp
  have hfits := List.findIdx?_eq_none_iff.mp h p hp
  simpa using hfits

theorem zipWith_ofBytes? {args : List Value} {params : List ColumnType}
    (hlength : args.length = params.length) (h : ∀ p ∈ args.zip params, p.1.fits p.2) :
    List.zipWith Value.ofBytes? params (args.map Value.bytes?) = args.map some := by
  induction args generalizing params with
  | nil => simp
  | cons v args ih =>
    cases params with
    | nil => cases hlength
    | cons type params =>
      rw [List.zip_cons_cons] at h
      have hrest := ih (Nat.succ.inj hlength) fun p hp => h p (List.mem_cons_of_mem _ hp)
      rw [List.map_cons, List.zipWith_cons_cons, Value.ofBytes?_bytes? (h _ List.mem_cons_self),
        hrest, List.map_cons]

/-- The text of a statement that is prepared. -/
def WireEvent.prepared? : WireEvent → Option String
  | .prepare sql => some sql
  | .bind _ => none

namespace ScriptedServer

variable (server : ScriptedServer) (statement : Statement Value)

/-- What a server makes of a statement: it fails with the statement prepared, or it has bound the
values, which fit the parameters of the reply, and fails or gives the reply. -/
theorem play_cases {answer : Except Error Reply} {after : ScriptedServer}
    (h : server.play statement = (answer, after)) :
    after.replies = server.replies.tail ∧
      ((∃ e, answer = .error e) ∧ after.events = server.events ++ [.prepare statement.sql] ∨
        statement.args.length = (server.replies.headD {}).params.length ∧
          misfit? statement.args (server.replies.headD {}).params = none ∧
          after.events = server.events ++
            [.prepare statement.sql, .bind (statement.args.map Value.bytes?)] ∧
          ((∃ e, answer = .error e) ∨ answer = .ok (server.replies.headD {}))) := by
  simp only [play] at h
  split at h
  · cases h
    exact ⟨rfl, .inl ⟨⟨_, rfl⟩, rfl⟩⟩
  · split at h
    · cases h
      exact ⟨rfl, .inl ⟨⟨_, rfl⟩, rfl⟩⟩
    · rename_i hlength
      split at h
      · cases h
        exact ⟨rfl, .inl ⟨⟨_, rfl⟩, rfl⟩⟩
      · rename_i hfits
        split at h
        · cases h
          exact ⟨rfl, .inr ⟨not_not.mp hlength, hfits, List.append_assoc _ _ _, .inl ⟨_, rfl⟩⟩⟩
        · cases h
          exact ⟨rfl, .inr ⟨not_not.mp hlength, hfits, List.append_assoc _ _ _, .inr rfl⟩⟩

/-- A statement has a reply only after its values were bound, each by bytes that stand for it as a
value of the type of its parameter. -/
theorem bound_values {reply : Reply} {after : ScriptedServer}
    (h : server.play statement = (.ok reply, after)) :
    ∃ bound, after.events = server.events ++ [.prepare statement.sql, .bind bound] ∧
      List.zipWith Value.ofBytes? reply.params bound = statement.args.map some := by
  obtain ⟨_, ⟨⟨_, hfailed⟩, _⟩ | ⟨hlength, hfits, hevents, ⟨_, hfailed⟩ | hreply⟩⟩ :=
    server.play_cases statement h
  · cases hfailed
  · cases hfailed
  · cases hreply
    exact ⟨_, hevents, zipWith_ofBytes? hlength (fits_of_misfit? hfits)⟩

/-! ### Many statements -/

/-- Sends statements one after the other. -/
def run (server : ScriptedServer) : List (Statement Value) →
    List (Except Error Reply) × ScriptedServer
  | [] => ([], server)
  | statement :: rest =>
    let (answer, next) := server.exchange statement
    let (answers, last) := next.run rest
    (answer :: answers, last)

/-- A statement that can be sent takes a reply and is prepared, and any other leaves the server as
it was. -/
theorem prepared_exchange :
    (server.exchange statement).2.events.filterMap WireEvent.prepared? =
        server.events.filterMap WireEvent.prepared? ++
          (if statement.isSendable then [statement.sql] else []) ∧
      (server.exchange statement).2.replies =
        server.replies.drop (if statement.isSendable then 1 else 0) := by
  rw [exchange]
  split
  · cases hplay : server.play statement with
    | mk answer after =>
      obtain ⟨hreplies, hcases⟩ := server.play_cases statement hplay
      obtain ⟨_, hevents⟩ | ⟨_, _, hevents, _⟩ := hcases <;>
        simp [hreplies, hevents, WireEvent.prepared?]
  · simp

/-- Over a sequence of statements, those that can be sent are prepared in their order, and each of
them takes one reply. -/
theorem prepared_run (statements : List (Statement Value)) :
    (server.run statements).2.events.filterMap WireEvent.prepared? =
        server.events.filterMap WireEvent.prepared? ++
          (statements.filter Statement.isSendable).map Statement.sql ∧
      (server.run statements).2.replies =
        server.replies.drop (statements.filter Statement.isSendable).length ∧
      (server.run statements).1.length = statements.length := by
  induction statements generalizing server with
  | nil => simp [run]
  | cons statement rest ih =>
    obtain ⟨hevents, hreplies⟩ := server.prepared_exchange statement
    obtain ⟨hmore, hleft, hlength⟩ := ih (server.exchange statement).2
    rw [run]
    refine ⟨?_, ?_, by simpa using hlength⟩
    · rw [hmore, hevents, List.filter_cons, List.append_assoc]
      split <;> rfl
    · rw [hleft, hreplies, List.filter_cons, List.drop_drop]
      split <;> simp [Nat.add_comm]

end ScriptedServer

end BoundSql
