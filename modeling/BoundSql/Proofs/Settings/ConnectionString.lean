import BoundSql.Pool
import BoundSql.Proofs.Settings.Address
import BoundSql.Proofs.Text.Runs
import BoundSql.Proofs.Text.Utf8

/-! Connection strings in writing.  Pairs with their values in quotes are valid exactly when every
value fits its parameter (`isValid_writePairs`).  A URL can give any user, password, host and
database, each written byte by byte, and is valid exactly when its port is one
(`isValid_write`). -/

namespace BoundSql.ConnectionString

theorem after?_eq_some_iff {start cs rest : List Char} :
    after? start cs = some rest ↔ cs = start ++ rest := by
  induction start generalizing cs with
  | nil =>
    rw [after?, Option.some.injEq, List.nil_append]
  | cons c start ih =>
    cases cs with
    | nil => simp [after?]
    | cons d cs =>
      rw [after?]
      split
      · rename_i hcd
        rw [ih, hcd, List.cons_append, List.cons.injEq, eq_self, true_and]
      · rename_i hcd
        simp [Ne.symm hcd]

/-! ### Pairs -/

/-- A value in which a quote and a backslash stand behind a backslash. -/
def escaped (value : List Char) : List Char :=
  value.flatMap fun c => if c = '\'' ∨ c = '\\' then ['\\', c] else [c]

def writePair (key value : List Char) : List Char := key ++ '=' :: '\'' :: (escaped value ++ ['\''])

/-- Pairs with blanks between them. -/
def writePairs (pairs : List (List Char × List Char)) : List Char :=
  [' '].intercalate (pairs.map fun p => writePair p.1 p.2)

def isNameChar (c : Char) : Bool := c.isLower || c = '_'

/-- Whether a text consists of lower-case letters and underscores, as names of parameters do. -/
def isName (key : List Char) : Bool := !key.isEmpty && key.all isNameChar

theorem quotedValue?_escaped (value rest : List Char) :
    quotedValue? (escaped value ++ '\'' :: rest) = some (value, rest) := by
  induction value with
  | nil => rfl
  | cons c value ih =>
    rw [escaped, List.flatMap_cons, List.append_assoc]
    rw [escaped] at ih
    split
    · rename_i hc
      rw [List.cons_append, List.singleton_append, quotedValue?, ih]
      rfl
    · rename_i hc
      obtain ⟨hquote, hbackslash⟩ := not_or.mp hc
      rw [List.singleton_append, quotedValue?, ih]
      · rfl
      · exact hquote
      · exact fun h => absurd h hbackslash
      · exact fun _ _ h => absurd h hbackslash

theorem isNameChar_cases {c : Char} (h : isNameChar c) :
    Text.isBlank c = false ∧ c ≠ '=' ∧ c ≠ ':' := by
  have hlow : c.toNat < 128 := by
    simp only [isNameChar, Bool.or_eq_true, decide_eq_true_eq] at h
    obtain h | rfl := h
    · have hboth : (decide (c.val ≥ 'a'.val) && decide (c.val ≤ 'z'.val)) = true := h
      have hz : c.val.toNat ≤ 122 := of_decide_eq_true (Bool.and_eq_true_iff.mp hboth).2
      exact Nat.lt_of_le_of_lt hz (by decide)
    · decide
  have hall : ∀ n < 128, isNameChar (Char.ofNat n) →
      Text.isBlank (Char.ofNat n) = false ∧ Char.ofNat n ≠ '=' ∧ Char.ofNat n ≠ ':' := by
    decide
  have hc := hall c.toNat hlow
  rw [Char.ofNat_toNat] at hc
  exact hc h

/-- Behind the first pair stands nothing, or a blank and the other pairs. -/
theorem exists_writePairs (key value : List Char) (rest : List (List Char × List Char)) :
    ∃ after, writePairs ((key, value) :: rest) =
        key ++ '=' :: '\'' :: (escaped value ++ '\'' :: after) ∧
      (rest = [] ∧ after = [] ∨ after = [' '] ++ writePairs rest) := by
  cases rest with
  | nil => exact ⟨[], by simp [writePairs, writePair], .inl ⟨rfl, rfl⟩⟩
  | cons q more =>
    exact ⟨[' '] ++ writePairs (q :: more), by simp [writePairs, writePair], .inr rfl⟩

/-- One pair is read, whatever blanks stand in front and whatever comes behind. -/
theorem arePairs_writePair {key : List Char} (hkey : isName key) (value : List Char)
    {gap : List Char} (hgap : Text.Blank gap) (after : List Char) :
    arePairs (gap ++ (key ++ '=' :: '\'' :: (escaped value ++ '\'' :: after))) =
      (isParameter key value && arePairs after) := by
  simp only [isName, Bool.and_eq_true, Bool.not_eq_true', List.all_eq_true] at hkey
  obtain ⟨hne, hchars⟩ := hkey
  obtain ⟨c, cs, rfl⟩ : ∃ c cs, key = c :: cs := List.exists_cons_of_ne_nil (by simpa using hne)
  have hfirst : ∀ d ∈ (c :: cs ++ '=' :: '\'' :: (escaped value ++ '\'' :: after)).head?,
      ¬ Text.isBlank d := by
    obtain ⟨hc, _⟩ := isNameChar_cases (hchars c List.mem_cons_self)
    rintro d hd
    cases hd
    simp [hc]
  have hspan : (c :: cs ++ '=' :: '\'' :: (escaped value ++ '\'' :: after)).span
      (fun c => !Text.isBlank c && c ≠ '=') =
        (c :: cs, '=' :: '\'' :: (escaped value ++ '\'' :: after)) := by
    refine Text.span_append (fun d hd => ?_) ?_
    · obtain ⟨hblank, hsign, _⟩ := isNameChar_cases (hchars d hd)
      simp [hblank, hsign]
    · rintro d hd
      cases hd
      rfl
  have hsign : Text.dropBlanks ('=' :: '\'' :: (escaped value ++ '\'' :: after)) =
      '=' :: '\'' :: (escaped value ++ '\'' :: after) := rfl
  have hquote : Text.dropBlanks ('\'' :: (escaped value ++ '\'' :: after)) =
      '\'' :: (escaped value ++ '\'' :: after) := rfl
  have hvalue : value? ('\'' :: (escaped value ++ '\'' :: after)) = some (value, after) :=
    quotedValue?_escaped value after
  have hshorter : after.length <
      (gap ++ (c :: cs ++ '=' :: '\'' :: (escaped value ++ '\'' :: after))).length := by
    simp only [List.length_append, List.length_cons]
    omega
  rw [arePairs, Text.dropBlanks_append hgap hfirst]
  simp only [hspan, hne, hsign, hquote, hvalue, hshorter, if_true, Bool.false_eq_true, if_false]

/-- Pairs are read one after the other, whatever blanks stand in front. -/
theorem arePairs_writePairs {pairs : List (List Char × List Char)} (h : ∀ p ∈ pairs, isName p.1)
    {gap : List Char} (hgap : Text.Blank gap) :
    arePairs (gap ++ writePairs pairs) = pairs.all fun p => isParameter p.1 p.2 := by
  induction pairs generalizing gap with
  | nil =>
    have hempty : Text.dropBlanks (gap ++ []) = [] := Text.dropBlanks_append hgap nofun
    rw [writePairs, List.map_nil, List.intercalate_nil, arePairs, hempty]
    rfl
  | cons p rest ih =>
    obtain ⟨key, value⟩ := p
    obtain ⟨after, hafter, hcases⟩ := exists_writePairs key value rest
    have hread : arePairs after = rest.all fun p => isParameter p.1 p.2 := by
      obtain ⟨rfl, rfl⟩ | rfl := hcases
      · rw [arePairs]
        rfl
      · have hblank : Text.Blank [' '] := List.forall_mem_singleton.mpr rfl
        exact ih (fun p hp => h p (List.mem_cons_of_mem _ hp)) hblank
    rw [hafter, arePairs_writePair (h _ List.mem_cons_self) value hgap, hread, List.all_cons]

/-- No text of pairs starts like a URL: a name ends with `=` in pairs and with a colon there. -/
theorem after?_writePairs {pairs : List (List Char × List Char)} (h : ∀ p ∈ pairs, isName p.1)
    {scheme : List Char} (hscheme : ∀ c ∈ scheme, isNameChar c) (more : List Char) :
    after? (scheme ++ ':' :: more) (writePairs pairs) = none := by
  refine Option.eq_none_iff_forall_ne_some.mpr fun rest hrest => ?_
  rw [after?_eq_some_iff, List.append_assoc, List.cons_append] at hrest
  cases pairs with
  | nil =>
    rw [writePairs, List.map_nil, List.intercalate_nil] at hrest
    simp at hrest
  | cons p others =>
    obtain ⟨key, value⟩ := p
    have hname := h _ List.mem_cons_self
    simp only [isName, Bool.and_eq_true, List.all_eq_true] at hname
    obtain ⟨after, hafter, _⟩ := exists_writePairs key value others
    rw [hafter] at hrest
    have hspan := congrArg (List.span isNameChar) hrest
    have hsign : isNameChar '=' = false := rfl
    have hcolon : isNameChar ':' = false := rfl
    rw [Text.span_append hname.2 (by simp [hsign]), Text.span_append hscheme (by simp [hcolon])]
      at hspan
    cases hspan

/-- Pairs with their values in quotes are valid exactly when every value fits its parameter. -/
theorem isValid_writePairs {pairs : List (List Char × List Char)} (h : ∀ p ∈ pairs, isName p.1) :
    isValid (String.ofList (writePairs pairs)) = pairs.all fun p => isParameter p.1 p.2 := by
  have hpostgres : ∀ c ∈ "postgres".toList, isNameChar c := List.all_eq_true.mp rfl
  have hpostgresql : ∀ c ∈ "postgresql".toList, isNameChar c := List.all_eq_true.mp rfl
  have hshort : after? "postgres://".toList (writePairs pairs) = none :=
    after?_writePairs h hpostgres ['/', '/']
  have hlong : after? "postgresql://".toList (writePairs pairs) = none :=
    after?_writePairs h hpostgresql ['/', '/']
  have hblank : Text.Blank [] := nofun
  have htext : (String.ofList (writePairs pairs)).toList = writePairs pairs :=
    String.toList_ofList
  rw [isValid, htext, hshort, hlong]
  exact arePairs_writePairs h hblank

/-! ### URLs -/

/-- A byte as a percent sign and two hexadecimal digits. -/
def percentByte (b : UInt8) : List Char :=
  ['%', (b.toNat / 16).digitChar, (b.toNat % 16).digitChar]

/-- A part of a URL that stands for a text, byte by byte. -/
def percent (cs : List Char) : List Char := (Text.encodeChars cs).flatMap percentByte

theorem percentBytes_percentByte (b : UInt8) (rest : List Char) :
    percentBytes (percentByte b ++ rest) = b :: percentBytes rest := by
  have hall : ∀ n < 256, (percentBytes.isHex (n / 16).digitChar &&
      percentBytes.isHex (n % 16).digitChar) = true ∧
        Text.ofDigits 16 [(n / 16).digitChar, (n % 16).digitChar] = n := by
    decide +kernel
  obtain ⟨hhex, hvalue⟩ := hall b.toNat b.toNat_lt
  rw [percentByte, List.cons_append, List.cons_append, List.singleton_append, percentBytes,
    if_pos hhex, hvalue, UInt8.ofNat_toNat]

theorem percentBytes_percent (cs : List Char) :
    percentBytes (percent cs) = Text.encodeChars cs := by
  rw [percent]
  induction Text.encodeChars cs with
  | nil => rfl
  | cons b bytes ih => rw [List.flatMap_cons, percentBytes_percentByte, ih]

/-- Every text can be a part of a URL. -/
theorem decode?_percent (cs : List Char) : decode? (percent cs) = some cs := by
  rw [decode?, percentBytes_percent]
  exact Text.decodeChars?_eq_some_iff.mpr rfl

/-- A text without percent signs stands for itself. -/
theorem decode?_of_not_mem {cs : List Char} (h : '%' ∉ cs) : decode? cs = some cs := by
  have hbytes : percentBytes cs = Text.encodeChars cs := by
    induction cs with
    | nil => rfl
    | cons c cs ih =>
      rw [List.mem_cons, not_or] at h
      obtain ⟨hc, hcs⟩ := h
      rw [percentBytes, ih hcs, Text.encode_eq, Text.encodeChars_cons]
      · simp [Text.encodeChars]
      · exact fun _ _ _ heq => absurd heq.symm hc
  rw [decode?, hbytes]
  exact Text.decodeChars?_eq_some_iff.mpr rfl

/-- What a URL says of a connection. -/
structure UrlParts where
  user : List Char
  password : List Char
  host : List Char
  port : Nat
  database : List Char

namespace UrlParts

variable (parts : UrlParts)

def credentials : List Char := percent parts.user ++ ':' :: percent parts.password

def authority : List Char := percent parts.host ++ ':' :: (toString parts.port).toList

/-- What stands behind the scheme of the URL. -/
def body : List Char :=
  parts.credentials ++ '@' :: (parts.authority ++ '/' :: percent parts.database)

/-- The URL with all its parts. -/
def write : String := String.ofList ("postgres://".toList ++ parts.body)

end UrlParts

/-- Whether a character has a meaning of its own in a URL. -/
def isSeparator (c : Char) : Bool := ['@', ':', '/', '?', ',', '['].contains c

theorem not_isSeparator_percent {cs : List Char} : ∀ c ∈ percent cs, isSeparator c = false := by
  intro c hc
  obtain ⟨b, _, hc⟩ := List.mem_flatMap.mp hc
  have hall : ∀ n < 256,
      ['%', (n / 16).digitChar, (n % 16).digitChar].all (!isSeparator ·) = true := by
    decide +kernel
  have hb := hall b.toNat b.toNat_lt
  simp only [List.all_eq_true, Bool.not_eq_true'] at hb
  exact hb c hc

theorem not_isSeparator_toString (n : Nat) :
    ∀ c ∈ (toString n).toList, isSeparator c = false := by
  intro c hc
  obtain ⟨d, hd, rfl⟩ := Text.exists_of_isDigit (Text.isDigit_of_mem_toString hc)
  have hall : ∀ d < 10, isSeparator (Char.ofNat (48 + d)) = false := by decide
  exact hall d hd

theorem ne_of_not_isSeparator {c separator : Char} (h : isSeparator c = false)
    (hseparator : isSeparator separator) : c ≠ separator := by
  rintro rfl
  rw [h] at hseparator
  cases hseparator

/-- Two parts with a colon between them have no other separator. -/
theorem ne_of_mem_parts {front back : List Char} (hfront : ∀ c ∈ front, isSeparator c = false)
    (hback : ∀ c ∈ back, isSeparator c = false) {c : Char} (h : c ∈ front ++ ':' :: back)
    {separator : Char} (hseparator : isSeparator separator) (hcolon : ':' ≠ separator) :
    c ≠ separator := by
  obtain h | h := List.mem_append.mp h
  · exact ne_of_not_isSeparator (hfront c h) hseparator
  · obtain rfl | h := List.mem_cons.mp h
    · exact hcolon
    · exact ne_of_not_isSeparator (hback c h) hseparator

theorem cutAt_append {p : Char → Bool} {front rest : List Char} (hfront : ∀ c ∈ front, p c = false)
    (hrest : ∀ c ∈ rest.head?, p c) : cutAt p (front ++ rest) = (front, rest) :=
  Text.span_append (fun c hc => by rw [hfront c hc, Bool.not_false])
    fun c hc => by rw [hrest c hc, Bool.not_true]

theorem cutAt_colon {front : List Char} (h : ∀ c ∈ front, isSeparator c = false)
    (back : List Char) : cutAt (· = ':') (front ++ ':' :: back) = (front, ':' :: back) :=
  cutAt_append (fun c hc => decide_eq_false (ne_of_not_isSeparator (h c hc) rfl))
    fun c hc => by cases hc; rfl

theorem isHost_percent (host : List Char) : isHost (percent host) := by
  have hdecode := decode?_percent host
  rw [decode?] at hdecode
  unfold isHost
  split
  · rfl
  · rw [hdecode]
    rfl

theorem isEncodedPort_toString (port : Nat) :
    isEncodedPort (toString port).toList = decide (port ≤ maxPort) := by
  have hpercent : '%' ∉ (toString port).toList := fun hmem => by
    cases Text.isDigit_of_mem_toString hmem
  have hcomma : ',' ∉ (toString port).toList := fun hmem => by
    cases Text.isDigit_of_mem_toString hmem
  have hparameter : ∀ value, isParameter "port".toList value =
      (Address.splitAt ',' value).all isPort := fun _ => rfl
  have hempty : (toString port).toList.isEmpty = false := by
    rw [List.isEmpty_eq_false_iff]
    exact Text.toList_toString_ne_nil port
  rw [isEncodedPort, decode?_of_not_mem hpercent]
  simp only [hparameter, Address.splitAt_eq_splitOn, List.splitOn_eq_singleton hcomma,
    List.all_cons, List.all_nil, Bool.and_true, isPort, hempty, Bool.false_or,
    Text.unsigned?_toString, Text.upTo]
  split <;> simp [*]

theorem isHostAndPort_authority (parts : UrlParts) :
    isHostAndPort parts.authority = decide (parts.port ≤ maxPort) := by
  have hcut : cutAt (· = ':') parts.authority =
      (percent parts.host, ':' :: (toString parts.port).toList) :=
    cutAt_colon not_isSeparator_percent _
  unfold isHostAndPort
  split
  · -- A host in brackets would start with one, and no part of a URL does.
    rename_i inner heq
    rw [UrlParts.authority] at heq
    cases hhost : percent parts.host with
    | nil =>
      rw [hhost] at heq
      cases heq
    | cons c cs =>
      rw [hhost, List.cons_append] at heq
      obtain ⟨rfl, _⟩ := List.cons.inj heq
      have hbracket : isSeparator '[' = false :=
        not_isSeparator_percent '[' (hhost ▸ List.mem_cons_self)
      cases hbracket
  · rw [hcut]
    simp only [isHost_percent, isEncodedPort_toString, Bool.true_and]

theorem isUrlBody_body (parts : UrlParts) :
    isUrlBody parts.body = decide (parts.port ≤ maxPort) := by
  have hcredentials : ∀ c ∈ parts.credentials, c ≠ '@' := fun c hc =>
    ne_of_mem_parts not_isSeparator_percent not_isSeparator_percent hc rfl (by decide)
  have hauthority : ∀ c ∈ parts.authority, ∀ separator, isSeparator separator →
      ':' ≠ separator → c ≠ separator := fun c hc _ =>
    ne_of_mem_parts not_isSeparator_percent (not_isSeparator_toString _) hc
  have hcutUser : cutAt (· = '@') parts.body =
      (parts.credentials, '@' :: (parts.authority ++ '/' :: percent parts.database)) :=
    cutAt_append (fun c hc => decide_eq_false (hcredentials c hc)) fun c hc => by cases hc; rfl
  have hcutHosts : cutAt (fun c => c = '/' || c = '?')
      (parts.authority ++ '/' :: percent parts.database) =
        (parts.authority, '/' :: percent parts.database) := by
    refine cutAt_append (fun c hc => ?_) fun c hc => by cases hc; rfl
    simp [hauthority c hc '/' rfl (by decide), hauthority c hc '?' rfl (by decide)]
  have hcutPath : cutAt (· = '?') (percent parts.database) = (percent parts.database, []) := by
    have hcut : cutAt (· = '?') (percent parts.database ++ []) = (percent parts.database, []) :=
      cutAt_append (fun c hc =>
        decide_eq_false (ne_of_not_isSeparator (not_isSeparator_percent c hc) rfl)) nofun
    rwa [List.append_nil] at hcut
  have hcomma : ',' ∉ parts.authority := fun hmem =>
    hauthority ',' hmem ',' rfl (by decide) rfl
  have hcutName : cutAt (· = ':') parts.credentials =
      (percent parts.user, ':' :: percent parts.password) := cutAt_colon not_isSeparator_percent _
  have hempty : parts.authority.isEmpty = false := by
    simp [UrlParts.authority]
  rw [isUrlBody]
  simp only [hcutUser, hcutName, hcutHosts, hcutPath, Address.splitAt_eq_splitOn,
    List.splitOn_eq_singleton hcomma, List.all_cons, List.all_nil, isHostAndPort_authority,
    decode?_percent, hempty, Bool.false_or, Bool.and_true, List.drop_nil]
  rw [areParameters]
  simp

/-- A URL can give any texts for its parts, and is valid exactly when its port is one. -/
theorem isValid_write (parts : UrlParts) :
    isValid parts.write = decide (parts.port ≤ maxPort) := by
  have htext : parts.write.toList = "postgres://".toList ++ parts.body := String.toList_ofList
  have hscheme : after? "postgres://".toList parts.write.toList = some parts.body :=
    after?_eq_some_iff.mpr htext
  rw [isValid, hscheme, ← isUrlBody_body]

/-- A pool is made for a written URL when its port is one and there is room for the connections, and
then it is open and holds none. -/
theorem ofSettings_write_ok_iff {parts : UrlParts} {maxSize : Nat} {recycling : Recycling}
    {pool : Pool} :
    Pool.ofSettings ⟨parts.write, maxSize, recycling⟩ = .ok pool ↔
      parts.port ≤ maxPort ∧ Pool.hasRoom maxSize ∧ pool = ⟨maxSize, recycling, 0, false⟩ := by
  rw [Pool.ofSettings, isValid_write]
  by_cases hport : parts.port ≤ maxPort <;> by_cases hroom : Pool.hasRoom maxSize <;>
    simp [hport, hroom, eq_comm]

end BoundSql.ConnectionString
