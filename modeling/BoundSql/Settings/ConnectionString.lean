import BoundSql.Settings.Address
import BoundSql.Text.Blank
import BoundSql.Text.Numeral
import BoundSql.Text.Utf8

/-!
Connection strings.  There are two forms: a URL of a `postgres` scheme, and pairs `key=value` with
blanks between them.  Both give parameters, and a connection string is well formed when every
parameter is known and its value has the form that the parameter asks for.
-/

namespace BoundSql.ConnectionString

/-- The greatest port. -/
def maxPort : Nat := 65535

def isWord (cs : List Char) : Bool := (Text.signed? (Nat.pow 2 63 - 1) cs).isSome

/-- Whether a text is a port; an empty one stands for the usual port. -/
def isPort (cs : List Char) : Bool := cs.isEmpty || (Text.unsigned? maxPort cs).isSome

/-- Whether a value has the form that its parameter asks for.  No value fits an unknown
parameter. -/
def isParameter (key value : List Char) : Bool :=
  let text := String.ofList value
  match String.ofList key with
  | "user" | "password" | "dbname" | "options" | "application_name" | "host" => true
  | "sslmode" => ["disable", "prefer", "require"].contains text
  | "sslnegotiation" => ["postgres", "direct"].contains text
  | "hostaddr" => (Address.splitAt ',' value).all Address.isAddress
  | "port" => (Address.splitAt ',' value).all isPort
  | "connect_timeout" | "tcp_user_timeout" | "keepalives_idle" | "keepalives_interval" =>
    isWord value
  | "keepalives" => (Text.unsigned? Text.maxWord64 value).isSome
  | "keepalives_retries" => (Text.unsigned? (Nat.pow 2 32 - 1) value).isSome
  | "target_session_attrs" => ["any", "read-write", "read-only"].contains text
  | "channel_binding" => ["disable", "prefer", "require"].contains text
  | "load_balance_hosts" => ["disable", "random"].contains text
  | _ => false

/-! ### Pairs -/

/-- Reads a value up to a blank; a backslash takes the character after it as it is. -/
def plainValue : List Char → List Char × List Char
  | [] => ([], [])
  | ['\\'] => ([], [])
  | '\\' :: c :: cs =>
    let (value, rest) := plainValue cs
    (c :: value, rest)
  | c :: cs =>
    if Text.isBlank c then ([], c :: cs)
    else
      let (value, rest) := plainValue cs
      (c :: value, rest)

/-- Reads a value up to a single quote, which has to be there; a backslash takes the character
after it as it is. -/
def quotedValue? : List Char → Option (List Char × List Char)
  | [] => none
  | '\'' :: cs => some ([], cs)
  | ['\\'] => none
  | '\\' :: c :: cs => (quotedValue? cs).map fun (value, rest) => (c :: value, rest)
  | c :: cs => (quotedValue? cs).map fun (value, rest) => (c :: value, rest)

/-- Reads a value, which may stand in single quotes and may be empty only there. -/
def value? : List Char → Option (List Char × List Char)
  | '\'' :: cs => quotedValue? cs
  | cs =>
    let (value, rest) := plainValue cs
    if value.isEmpty then none else some (value, rest)

/-- Whether a text consists of well-formed pairs.  It ends where no key starts. -/
def arePairs (cs : List Char) : Bool :=
  let (key, rest) := (Text.dropBlanks cs).span fun c => !Text.isBlank c && c ≠ '='
  if key.isEmpty then true
  else
    match Text.dropBlanks rest with
    | '=' :: rest =>
      match value? (Text.dropBlanks rest) with
      | some (value, rest) =>
        if rest.length < cs.length then isParameter key value && arePairs rest else false
      | none => false
    | _ => false
termination_by cs.length

/-! ### URLs -/

/-- The bytes of a text in which `%` and two hexadecimal digits stand for a byte. -/
def percentBytes : List Char → List UInt8
  | [] => []
  | '%' :: a :: b :: cs =>
    if isHex a && isHex b then
      UInt8.ofNat (Text.ofDigits 16 [a, b]) :: percentBytes cs
    else Text.encode "%" ++ percentBytes (a :: b :: cs)
  | c :: cs => Text.encode c.toString ++ percentBytes cs
where
  isHex (c : Char) : Bool := c.isDigit || ('a' ≤ c && c ≤ 'f') || ('A' ≤ c && c ≤ 'F')

/-- The text that a part of a URL stands for, if its bytes are well-formed UTF-8. -/
def decode? (cs : List Char) : Option (List Char) := Text.decodeChars? (percentBytes cs)

/-- Whether a part of a URL is a host: a path, or bytes of well-formed UTF-8. -/
def isHost (cs : List Char) : Bool :=
  match percentBytes cs with
  | 0x2F :: _ => true
  | bytes => (Text.decodeChars? bytes).isSome

/-- Cuts a text at the first occurrence of a character that satisfies `p`, which starts the
second part. -/
def cutAt (p : Char → Bool) (cs : List Char) : List Char × List Char := cs.span fun c => !p c

/-- Whether a part of a URL is a port. -/
def isEncodedPort (cs : List Char) : Bool :=
  match decode? cs with
  | some port => isParameter "port".toList port
  | none => false

/-- Whether a part of a URL is a host with or without a port after a colon.  A host in brackets
may hold colons. -/
def isHostAndPort (cs : List Char) : Bool :=
  match cs with
  | '[' :: inner =>
    match cutAt (· = ']') inner with
    | (host, _ :: []) => isHost host
    | (host, _ :: ':' :: port) => isHost host && isEncodedPort port
    | _ => false
  | cs =>
    match cutAt (· = ':') cs with
    | (host, _ :: port) => isHost host && isEncodedPort port
    | (host, []) => isHost host

/-- Whether a text consists of well-formed parameters with `&` between them. -/
def areParameters (cs : List Char) : Bool :=
  if cs.isEmpty then true
  else
    match cutAt (· = '=') cs with
    | (key, _ :: rest) =>
      let (value, more) := cutAt (· = '&') rest
      let fits := match decode? key with
        | none => false
        | some key =>
          if key = "host".toList then isHost value
          else
            match decode? value with
            | none => false
            | some value => isParameter key value
      if more.length < cs.length then fits && areParameters (more.drop 1) else false
    | (_, []) => false
termination_by cs.length
decreasing_by
  simp only [List.length_drop]
  omega

/-- Whether a text is what may follow the scheme of a URL: credentials up to the first `@`, hosts
with commas between them, a path, and parameters after `?`. -/
def isUrlBody (cs : List Char) : Bool :=
  let (user, afterUser) := match cutAt (· = '@') cs with
    | (credentials, _ :: rest) => ((cutAt (· = ':') credentials).1, rest)
    | (_, []) => ([], cs)
  let (hosts, afterHosts) := cutAt (fun c => c = '/' || c = '?') afterUser
  let (path, parameters) := match afterHosts with
    | '/' :: rest => cutAt (· = '?') rest
    | rest => ([], rest)
  (decode? user).isSome
    && (hosts.isEmpty || (Address.splitAt ',' hosts).all isHostAndPort)
    && (decode? path).isSome
    && areParameters (parameters.drop 1)

/-- The rest of a text after its beginning, if it starts so. -/
def after? : List Char → List Char → Option (List Char)
  | [], cs => some cs
  | c :: start, d :: cs => if c = d then after? start cs else none
  | _ :: _, [] => none

def isValid (s : String) : Bool :=
  match after? "postgres://".toList s.toList, after? "postgresql://".toList s.toList with
  | some body, _ => isUrlBody body
  | none, some body => isUrlBody body
  | none, none => arePairs s.toList

end BoundSql.ConnectionString
