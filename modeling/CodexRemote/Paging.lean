import CodexRemote.Translation
import Mathlib.Algebra.Order.Ring.Int
import Mathlib.Data.List.Sort

/-!
# Page tokens and page bounds

`pageSize`, `page` and `decodePageToken` of `internal/codex/manager.go`, and the two listings
of directories: `ListDirectories` there, `ListWorkspaceEntries` of `workspace.go` with `List`
of `internal/workspace/service.go`.

A page token is what a client sends back: base64 in the URL alphabet of a JSON object. The
offset in it is a Go `int`, hence any number of 64 bits, and so is the sum of offset and page
size. Slicing outside a list panics, which is an outcome of its own here; the length of a
slice is an `int`, so a slice is a list that is not longer than that.

The syntax of JSON is not modelled. `TokenJSON` stands for it: what `json.Marshal` writes for a
token, and the value that a text denotes. How that value is decoded into the token is modelled.
-/
namespace CodexRemote.Paging

open Protocol Adapter Translation Option List

variable {Value : Type} {start limit : Int64}

/-- A list whose length is an `int`. -/
abbrev Slice (Value : Type) : Type := { items : List Value // items.length < 2 ^ 63 }

/-- `len` -/
def Slice.len {Value : Type} (slice : Slice Value) : Int64 := Int64.ofNat slice.1.length

/-- The slice expression `items[low:high]`; none is a panic. -/
def Slice.between {Value : Type} (slice : Slice Value) (low high : Int64) :
    Option (List Value) :=
  if 0 ≤ low ∧ low ≤ high ∧ high ≤ slice.len then
    some ((slice.1.take high.toInt.toNat).drop low.toInt.toNat)
  else none

/-- How a request ends. -/
inductive Outcome (Answer : Type) where
  | answered (answer : Answer)
  | refused (code : ErrorCode) (message : String)
  | panicked
  deriving DecidableEq

structure PageRequest where
  pageSize : UInt32 := 0
  pageToken : String := ""
  deriving DecidableEq

structure PageToken where
  operation : String
  query : String
  offset : Int64 := 0
  cursor : String := ""
  deriving DecidableEq

/-- The syntax of JSON. An empty text is not JSON. -/
structure TokenJSON where
  marshal : PageToken → Text
  parse : Text → Option Json
  empty : parse [] = none

/-- Fifty unless asked for otherwise, and never more than the Host's limit. -/
def pageSize (request : Option PageRequest) (max : UInt32) : Int64 :=
  let asked := match request with
    | some request => if 0 < request.pageSize then request.pageSize else 50
    | none => 50
  Int64.ofNat (if 0 < max ∧ max < asked then max else asked).toNat

/-! ## Tokens -/

/-- The value of a character of the URL alphabet. -/
def urlSextet (c : Char) : Option Nat :=
  let n := c.toNat
  if 65 ≤ n ∧ n ≤ 90 then some (n - 65)
  else if 97 ≤ n ∧ n ≤ 122 then some (n - 71)
  else if 48 ≤ n ∧ n ≤ 57 then some (n + 4)
  else if n = 45 then some 62
  else if n = 95 then some 63
  else none

/-- Groups of four characters without padding. The bits that are left over at the end are
dropped unchecked. -/
def decodeURLQuanta : List Char → Option Text
  | [] => some []
  | [_] => none
  | [a, b] => do
      let first ← urlSextet a
      let second ← urlSextet b
      some [UInt8.ofNat (first * 4 + second / 16)]
  | [a, b, c] => do
      let first ← urlSextet a
      let second ← urlSextet b
      let third ← urlSextet c
      some [UInt8.ofNat (first * 4 + second / 16), UInt8.ofNat (second * 16 + third / 4)]
  | a :: b :: c :: d :: rest => do
      let first ← urlSextet a
      let second ← urlSextet b
      let third ← urlSextet c
      let fourth ← urlSextet d
      let more ← decodeURLQuanta rest
      some (UInt8.ofNat (first * 4 + second / 16) :: UInt8.ofNat (second * 16 + third / 4) ::
        UInt8.ofNat (third * 64 + fourth) :: more)

/-- `base64.RawURLEncoding.DecodeString`. Line breaks are skipped wherever they stand. -/
def decodeURLString (value : String) : Option Text :=
  decodeURLQuanta (value.toList.filter fun c => c ≠ '\n' ∧ c ≠ '\r')

/-- A run of decimal digits. -/
def parseDigits (digits : List Char) : Option Nat :=
  if digits ≠ [] ∧ digits.all Char.isDigit then some (Nat.ofDigitChars 10 digits 0) else none

/-- Digits with or without a sign. -/
def parseSigned : List Char → Option Int
  | '-' :: digits => (parseDigits digits).map fun n => -Int.ofNat n
  | digits => (parseDigits digits).map Int.ofNat

/-- `strconv.ParseInt` of a number's literal: whole numbers of 64 bits only. -/
def parseInt (literal : String) : Option Int64 :=
  (parseSigned literal.toList).bind fun value =>
    if -2 ^ 63 ≤ value ∧ value < 2 ^ 63 then some (Int64.ofInt value) else none

/-- The members decoded into a string field are strings or `null`. -/
def stringsOnly (name : String) (body : Body) : Bool :=
  (matching name body).all fun value =>
    match value with
    | .string _ | .null => true
    | _ => false

/-- An integer field after decoding: the last number given for it, or an error. -/
def intField (name : String) (body : Body) : Option Int64 :=
  (matching name body).foldlM (fun kept value =>
    match value with
    | .number literal => parseInt literal
    | .null => some kept
    | _ => none) 0

/-- `json.Unmarshal` into a `pageToken`. -/
def unmarshalToken : Json → Option PageToken
  | .object body => do
      let offset ← intField "offset" body
      if stringsOnly "op" body ∧ stringsOnly "query" body ∧ stringsOnly "cursor" body then
        some { operation := stringField "op" body, query := stringField "query" body
               offset := offset, cursor := stringField "cursor" body }
      else none
  | .null => some { operation := "", query := "" }
  | _ => none

/-- The JSON object of a token; empty members after the query are left out. -/
def tokenObject (token : PageToken) : Json :=
  .object ([("op", .string token.operation), ("query", .string token.query)] ++
    (if token.offset = 0 then [] else [("offset", .number (toString token.offset.toInt))]) ++
    (if token.cursor = "" then [] else [("cursor", .string token.cursor)]))

def encodePageToken (json : TokenJSON) (token : PageToken) : String :=
  String.ofList (encodeToString (json.marshal token))

def decodePageToken (json : TokenJSON) (value operation query : String) :
    Except String PageToken :=
  match decodeURLString value with
  | none => .error "invalid page token"
  | some raw =>
      match (json.parse raw).bind unmarshalToken with
      | none => .error "page token does not match operation and normalized query"
      | some token =>
          if token.operation = operation ∧ token.query = query then .ok token
          else .error "page token does not match operation and normalized query"

/-- `page`: where the page starts, and how long it may be. -/
def page (json : TokenJSON) (request : Option PageRequest) (max : UInt32)
    (operation query : String) : Except String (Int64 × Int64) :=
  match request with
  | none => .ok (0, pageSize request max)
  | some sent =>
      if sent.pageToken = "" then .ok (0, pageSize request max)
      else
        match decodePageToken json sent.pageToken operation query with
        | .error _ => .error "invalid page token"
        | .ok token =>
            if token.offset < 0 ∨ token.cursor ≠ "" then .error "invalid page token"
            else .ok (token.offset, pageSize request max)

/-- The bounds `ListDirectories` and `ListHistory` compute: the end first, then the start is
moved back to the end of the list. -/
def pageBounds (start limit length : Int64) : Int64 × Int64 :=
  (if length < start then length else start, min (start + limit) length)

/-! ## Listing directories -/

structure DirectoryEntry where
  name : String
  path : String
  deriving DecidableEq

/-- Entries in the order of their names, keeping only directories. -/
def directories (join : String → String → String) (parent : String)
    (entries : Slice (String × Bool)) : Slice DirectoryEntry :=
  ⟨(((entries.1.filter Prod.snd).map fun entry =>
      { name := entry.1, path := join parent entry.1 }).insertionSort
        fun one other : DirectoryEntry => one.name ≤ other.name), by
    rw [List.length_insertionSort, List.length_map]
    exact Nat.lt_of_le_of_lt (List.length_filter_le _ _) entries.2⟩

structure DirectoryPage where
  parentPath : String
  directories : List DirectoryEntry
  nextPageToken : String
  deriving DecidableEq

/-- `ListDirectories`, given the normalized path and the entries that were read. -/
def listDirectories (json : TokenJSON) (max : UInt32) (join : String → String → String)
    (normalized : Except String String) (read : Except String (Slice (String × Bool)))
    (request : Option PageRequest) : Outcome DirectoryPage :=
  match normalized, read with
  | .error message, _ => .refused .invalidRequest message
  | .ok _, .error message => .refused (.other "DIRECTORY_NOT_ACCESSIBLE") message
  | .ok parent, .ok entries =>
      let dirs := directories join parent entries
      match page json request max "directories" parent with
      | .error message => .refused .invalidRequest message
      | .ok (start, limit) =>
          let bounds := pageBounds start limit dirs.len
          match dirs.between bounds.1 bounds.2 with
          | none => .panicked
          | some shown =>
              .answered
                { parentPath := parent, directories := shown
                  nextPageToken :=
                    if bounds.2 < dirs.len then
                      encodePageToken json
                        { operation := "directories", query := parent, offset := bounds.2 }
                    else "" }

/-! ## Listing a workspace -/

section Workspace

variable {Entry : Type}

/-- The loop of `List` over the names of a page. -/
def entriesOf (metadata : String → Except (ErrorCode × String) Entry) (relative : String)
    (names : List String) : Except (ErrorCode × String) (List Entry) :=
  names.mapM fun name => metadata (if relative = "" then name else relative ++ "/" ++ name)

/-- `List` of the workspace service, given the names that were read. -/
def list (metadata : String → Except (ErrorCode × String) Entry)
    (read : Except (ErrorCode × String) (Slice String)) (relative : String)
    (start size : Int64) : Outcome (List Entry × Int64) :=
  match read with
  | .error (code, message) => .refused code message
  | .ok dir =>
      if start < 0 ∨ dir.len < start ∨ size < 0 then
        .refused .invalidRequest "page offset is out of range"
      else
        match dir.between start (min (start + size) dir.len) with
        | none => .panicked
        | some names =>
            match entriesOf metadata relative names with
            | .error (code, message) => .refused code message
            | .ok entries => .answered (entries, dir.len)

structure EntryPage (Entry : Type) where
  codexId : String
  relativeDirectory : String
  entries : List Entry
  nextPageToken : String

/-- `ListWorkspaceEntries` -/
def listWorkspaceEntries (json : TokenJSON) (max : UInt32)
    (metadata : String → Except (ErrorCode × String) Entry)
    (read : Except (ErrorCode × String) (Slice String)) (codexId relative : String)
    (request : Option PageRequest) : Outcome (EntryPage Entry) :=
  let query := codexId ++ "\x00" ++ relative
  if codexId = "" then .refused .invalidRequest "codex id is required"
  else
    match page json request max "workspace_list" query with
    | .error message => .refused .invalidRequest message
    | .ok (start, size) =>
        match list metadata read relative start size with
        | .refused code message => .refused code message
        | .panicked => .panicked
        | .answered (entries, total) =>
            let next := start + Int64.ofNat entries.length
            .answered
              { codexId := codexId, relativeDirectory := relative, entries := entries
                nextPageToken :=
                  if next < total then
                    encodePageToken json
                      { operation := "workspace_list", query := query, offset := next }
                  else "" }

end Workspace

/-! ## A token comes back as it was -/

theorem urlSextet_urlCharacter (small : value < 64) :
    urlSextet (urlCharacter value) = some value := by
  have all : ∀ value : Fin 64, urlSextet (urlCharacter value) = some value.1 := by decide
  exact all ⟨value, small⟩

theorem ofNat_eq_of_mod (same : value % 256 = byte.toNat) :
    UInt8.ofNat value = byte := by
  rw [← UInt8.toNat_inj, UInt8.toNat_ofNat']
  exact same

/-- Decoding reads back what was encoded, group by group. -/
theorem decodeURLQuanta_encodeToString (raw : Text) :
    decodeURLQuanta (encodeToString raw) = some raw := by
  induction raw using encodeToString.induct with
  | case1 => rfl
  | case2 a =>
    have high := a.toNat_lt
    simp only [encodeToString, decodeURLQuanta]
    rw [urlSextet_urlCharacter (by omega), urlSextet_urlCharacter (by omega)]
    simp only [bind_eq_bind, bind_some, some.injEq, cons.injEq, and_true]
    exact ofNat_eq_of_mod (by omega)
  | case3 a b =>
    have high := a.toNat_lt
    have middle := b.toNat_lt
    simp only [encodeToString, decodeURLQuanta]
    rw [urlSextet_urlCharacter (by omega), urlSextet_urlCharacter (by omega),
      urlSextet_urlCharacter (by omega)]
    simp only [bind_eq_bind, bind_some, some.injEq, cons.injEq, and_true]
    exact ⟨ofNat_eq_of_mod (by omega), ofNat_eq_of_mod (by omega)⟩
  | case4 a b c rest later =>
    have high := a.toNat_lt
    have middle := b.toNat_lt
    have low := c.toNat_lt
    simp only [encodeToString, decodeURLQuanta]
    rw [urlSextet_urlCharacter (by omega), urlSextet_urlCharacter (by omega),
      urlSextet_urlCharacter (by omega), urlSextet_urlCharacter (by omega), later]
    simp only [bind_eq_bind, bind_some, some.injEq, cons.injEq, and_true]
    exact ⟨ofNat_eq_of_mod (by omega), ofNat_eq_of_mod (by omega), ofNat_eq_of_mod (by omega)⟩

/-- No character of the alphabet is a line break. -/
theorem urlCharacter_line (value : Nat) :
    urlCharacter value ≠ '\n' ∧ urlCharacter value ≠ '\r' := by
  have all : ∀ value : Fin 64, urlCharacter value ≠ '\n' ∧ urlCharacter value ≠ '\r' := by
    decide
  by_cases small : value < 64
  · exact all ⟨value, small⟩
  have last : urlCharacter value = '_' := by
    rw [urlCharacter, if_neg (by omega), if_neg (by omega), if_neg (by omega), if_neg (by omega)]
  rw [last]
  decide

theorem encodeToString_line (raw : Text) : ∀ c ∈ encodeToString raw, c ≠ '\n' ∧ c ≠ '\r' := by
  induction raw using encodeToString.induct with
  | case1 => simp [encodeToString]
  | case2 a | case3 a b => simp [encodeToString, urlCharacter_line]
  | case4 a b c rest later =>
    simp only [encodeToString, forall_mem_cons]
    exact ⟨urlCharacter_line _, urlCharacter_line _, urlCharacter_line _, urlCharacter_line _,
      later⟩

theorem decodeURLString_encode (raw : Text) :
    decodeURLString (String.ofList (encodeToString raw)) = some raw := by
  have kept : (encodeToString raw).filter (fun c => c ≠ '\n' ∧ c ≠ '\r') =
      encodeToString raw := by
    rw [filter_eq_self]
    intro c member
    simpa using encodeToString_line raw c member
  rw [decodeURLString, String.toList_ofList, kept, decodeURLQuanta_encodeToString]

theorem parseDigits_toDigits (n : Nat) : parseDigits (Nat.toDigits 10 n) = some n := by
  have digits : (Nat.toDigits 10 n).all Char.isDigit = true := by
    rw [List.all_eq_true]
    exact fun c member => Nat.isDigit_of_mem_toDigits (by decide) (by decide) member
  rw [parseDigits, if_pos ⟨Nat.toDigits_ne_nil, digits⟩,
    Nat.ofDigitChars_toDigits (by decide) (by decide)]

theorem parseSigned_toDigits (n : Nat) : parseSigned (Nat.toDigits 10 n) = some (Int.ofNat n) := by
  unfold parseSigned
  split
  · rename_i digits signed
    have digit : '-'.isDigit = true :=
      Nat.isDigit_of_mem_toDigits (b := 10) (n := n) (by decide) (by decide)
        (signed ▸ mem_cons_self)
    exact absurd digit (by decide)
  · rw [parseDigits_toDigits, map_some]

/-- A number is read as it was written. -/
theorem parseInt_toString (nonneg : 0 ≤ offset.toInt) :
    parseInt (toString offset.toInt) = some offset := by
  obtain ⟨n, same⟩ := Int.eq_ofNat_of_zero_le nonneg
  have literal : (toString offset.toInt).toList = Nat.toDigits 10 n := by
    rw [same]
    exact Nat.toList_repr
  have low := offset.le_toInt
  have high := offset.toInt_lt
  have value : Int.ofNat n = offset.toInt := same.symm
  rw [parseInt, literal, parseSigned_toDigits, bind_some, value, if_pos ⟨low, high⟩,
    Int64.ofInt_toInt]

variable {token : PageToken}

/-- Decoding the object of a token gives the token. -/
theorem unmarshalToken_tokenObject (nonneg : 0 ≤ token.offset.toInt) :
    unmarshalToken (tokenObject token) = some token := by
  have op : foldName "op" = "op" := by decide +kernel
  have query : foldName "query" = "query" := by decide +kernel
  have offset : foldName "offset" = "offset" := by decide +kernel
  have cursor : foldName "cursor" = "cursor" := by decide +kernel
  obtain ⟨operation, asked, start, continued⟩ := token
  have parsed : parseInt start.toInt.repr = some start := parseInt_toString nonneg
  -- A zero offset and a blank cursor are not written.
  by_cases first : start = 0 <;> by_cases blank : continued = "" <;>
    simp [tokenObject, unmarshalToken, intField, stringsOnly, stringField, matching, op, query,
      offset, cursor, first, blank, parsed]

/-- The JSON library writes a token so that it reads back as the token's object. -/
def TokenJSON.Reads (json : TokenJSON) (token : PageToken) : Prop :=
  json.parse (json.marshal token) = some (tokenObject token)

theorem decodeURLString_encodePageToken (json : TokenJSON) (token : PageToken) :
    decodeURLString (encodePageToken json token) = some (json.marshal token) :=
  decodeURLString_encode (json.marshal token)

variable {json : TokenJSON}

/-- A token that can be read is not the empty one, which asks for the first page. -/
theorem encodePageToken_ne_empty
    (reads : json.Reads token) : encodePageToken json token ≠ "" := by
  intro blank
  have decoded := decodeURLString_encodePageToken json token
  have raw : json.marshal token = [] := by
    rw [blank] at decoded
    exact (some.inj decoded).symm
  rw [TokenJSON.Reads, raw, json.empty] at reads
  cases reads

/-- A token of the Host is accepted for its own operation and query. -/
theorem page_encodePageToken (reads : json.Reads token)
    (nonneg : 0 ≤ token.offset.toInt) (plain : token.cursor = "") (size : UInt32) (max : UInt32) :
    page json (some { pageSize := size, pageToken := encodePageToken json token }) max
        token.operation token.query =
      .ok (token.offset,
        pageSize (some { pageSize := size, pageToken := encodePageToken json token }) max) := by
  have own : decodePageToken json (encodePageToken json token) token.operation token.query =
      .ok token := by
    have parsed : json.parse (json.marshal token) = some (tokenObject token) := reads
    simp only [decodePageToken, decodeURLString_encodePageToken, parsed, bind_some,
      unmarshalToken_tokenObject nonneg, and_self, if_true]
  have usable : ¬ (token.offset < 0 ∨ token.cursor ≠ "") := by
    rw [Int64.lt_iff_toInt_lt]
    rintro (negative | continued)
    · exact absurd negative (Int.not_lt.mpr nonneg)
    · exact continued plain
  simp only [page, if_neg (encodePageToken_ne_empty reads), own, if_neg usable]

/-! ## What a page can be -/

variable (slice : Slice Value)

theorem Slice.len_toInt : slice.len.toInt = slice.1.length :=
  Int64.toInt_ofNat_of_lt slice.2

theorem pageSize_bounds (request : Option PageRequest) (max : UInt32) :
    0 ≤ (pageSize request max).toInt ∧ (pageSize request max).toInt < 2 ^ 32 := by
  have exact : ∀ size : UInt32, (Int64.ofNat size.toNat).toInt = size.toNat :=
    fun size => Int64.toInt_ofNat_of_lt (Nat.lt_trans size.toNat_lt (by decide))
  have small : ∀ size : UInt32, 0 ≤ (Int64.ofNat size.toNat).toInt ∧
      (Int64.ofNat size.toNat).toInt < 2 ^ 32 := by
    intro size
    have below := size.toNat_lt
    rw [exact]
    omega
  exact small _

/-- An accepted page starts at a natural number. -/
theorem page_bounds {request : Option PageRequest} {max : UInt32}
    {operation query : String}
    (accepted : page json request max operation query = .ok (start, limit)) :
    0 ≤ start.toInt ∧ 0 ≤ limit.toInt ∧ limit.toInt < 2 ^ 32 := by
  have size := pageSize_bounds request max
  have first : (0 : Int64).toInt = 0 := rfl
  unfold page at accepted
  split at accepted
  · cases accepted
    omega
  split at accepted
  · cases accepted
    omega
  split at accepted
  · cases accepted
  split at accepted
  · cases accepted
  rename_i token _ usable
  cases accepted
  have nonneg : ¬ token.offset < 0 := fun negative => usable (.inl negative)
  rw [Int64.lt_iff_toInt_lt] at nonneg
  omega

/-- A slice expression succeeds exactly within the bounds of the list. -/
theorem Slice.between_eq_none (low high : Int64) :
    slice.between low high = none ↔
      ¬ (0 ≤ low.toInt ∧ low.toInt ≤ high.toInt ∧ high.toInt ≤ slice.1.length) := by
  have first : (0 : Int64).toInt = 0 := rfl
  simp only [Slice.between, Int64.le_iff_toInt_le, slice.len_toInt, first, ite_eq_right_iff,
    reduceCtorEq, imp_false]

theorem min_toInt (one other : Int64) : (min one other).toInt = min one.toInt other.toInt := by
  have spelled : min one other = if one ≤ other then one else other := rfl
  rw [spelled]
  simp only [Int64.le_iff_toInt_le]
  split
  · omega
  · omega

/-- The sum of offset and page size is not a number of 64 bits. -/
def Wraps (start limit : Int64) : Prop := 2 ^ 63 ≤ start.toInt + limit.toInt

/-- A sum that wraps is negative. -/
theorem sum_toInt (low : 0 ≤ start.toInt) (size : 0 ≤ limit.toInt ∧ limit.toInt < 2 ^ 32) :
    (¬ Wraps start limit ∧ (start + limit).toInt = start.toInt + limit.toInt) ∨
      (Wraps start limit ∧ (start + limit).toInt < 0) := by
  have high := start.toInt_lt
  rw [Int64.toInt_add, Int.bmod_def, Wraps]
  omega

/-- The bounds of `ListDirectories` and `ListHistory` leave the list if and only if the sum
of offset and page size wraps. -/
theorem pageBounds_panics (low : 0 ≤ start.toInt)
    (size : 0 ≤ limit.toInt ∧ limit.toInt < 2 ^ 32) :
    slice.between (pageBounds start limit slice.len).1 (pageBounds start limit slice.len).2 =
        none ↔ Wraps start limit := by
  have clamped : (if slice.len < start then slice.len else start).toInt =
      min (slice.1.length : Int) start.toInt := by
    simp only [Int64.lt_iff_toInt_lt, slice.len_toInt]
    split
    · rw [slice.len_toInt]
      omega
    · omega
  rw [slice.between_eq_none, pageBounds]
  simp only [clamped, min_toInt, slice.len_toInt]
  rcases sum_toInt low size with ⟨fits, sum⟩ | ⟨wraps, sum⟩
  · simp only [fits, iff_false, not_not]
    omega
  · simp only [wraps, iff_true]
    omega

/-- `ListDirectories` slices out of range exactly when the token is accepted and the sum
wraps. -/
theorem listDirectories_panics (json : TokenJSON) (max : UInt32)
    (join : String → String → String) (normalized : Except String String)
    (read : Except String (Slice (String × Bool))) (request : Option PageRequest) :
    listDirectories json max join normalized read request = .panicked ↔
      ∃ parent entries start limit, normalized = .ok parent ∧ read = .ok entries ∧
        page json request max "directories" parent = .ok (start, limit) ∧
        Wraps start limit := by
  cases normalized with
  | error message => simp [listDirectories]
  | ok parent =>
    cases read with
    | error message => simp [listDirectories]
    | ok entries =>
      simp only [listDirectories, Except.ok.injEq, exists_and_left, exists_eq_left']
      cases accepted : page json request max "directories" parent with
      | error message => simp
      | ok bounds =>
        obtain ⟨start, limit⟩ := bounds
        obtain ⟨low, size⟩ := page_bounds accepted
        have panics := pageBounds_panics (directories join parent entries) low size
        cases shown : (directories join parent entries).between
            (pageBounds start limit (directories join parent entries).len).1
            (pageBounds start limit (directories join parent entries).len).2 with
        | none => simpa [shown] using panics.mp shown
        | some entries =>
          have fits := mt panics.mpr (by simp [shown])
          simpa [shown] using fits

/-- `List` slices out of range exactly when an offset within the directory wraps. -/
theorem list_panics (metadata : String → Except (ErrorCode × String) Entry)
    (read : Except (ErrorCode × String) (Slice String)) (relative : String) (low : 0 ≤ start.toInt)
    (bounds : 0 ≤ size.toInt ∧ size.toInt < 2 ^ 32) :
    list metadata read relative start size = .panicked ↔
      ∃ dir, read = .ok dir ∧ start.toInt ≤ dir.1.length ∧
        Wraps start size := by
  cases read with
  | error refusal => simp [list]
  | ok dir =>
    have first : (0 : Int64).toInt = 0 := rfl
    have outside : (start < 0 ∨ dir.len < start ∨ size < 0) ↔
        (dir.1.length : Int) < start.toInt := by
      simp only [Int64.lt_iff_toInt_lt, dir.len_toInt, first]
      omega
    have sliced : start.toInt ≤ dir.1.length →
        (dir.between start (min (start + size) dir.len) = none ↔
          Wraps start size) := by
      intro within
      rw [dir.between_eq_none, min_toInt, dir.len_toInt]
      rcases sum_toInt low bounds with ⟨fits, sum⟩ | ⟨wraps, sum⟩
      · simp only [fits, iff_false, not_not]
        omega
      · simp only [wraps, iff_true]
        omega
    simp only [list, outside, Except.ok.injEq, exists_eq_left']
    by_cases beyond : (dir.1.length : Int) < start.toInt
    · simp [beyond]
    have within := Int.not_lt.mp beyond
    rw [if_neg beyond]
    cases shown : dir.between start (min (start + size) dir.len) with
    | none => simp [within, (sliced within).mp shown]
    | some names =>
      have fits := mt (sliced within).mpr (by simp [shown])
      cases loaded : entriesOf metadata relative names with
      | error refusal | ok entries => simp [fits, loaded]

/-- `ListWorkspaceEntries` slices out of range exactly when the token is accepted, the
offset is within the directory, and the sum wraps. -/
theorem listWorkspaceEntries_panics (json : TokenJSON) (max : UInt32)
    (metadata : String → Except (ErrorCode × String) Entry)
    (read : Except (ErrorCode × String) (Slice String)) (codexId relative : String)
    (request : Option PageRequest) :
    listWorkspaceEntries json max metadata read codexId relative request = .panicked ↔
      ∃ dir start size, codexId ≠ "" ∧ read = .ok dir ∧
        page json request max "workspace_list" (codexId ++ "\x00" ++ relative) =
          .ok (start, size) ∧
        start.toInt ≤ dir.1.length ∧ Wraps start size := by
  by_cases nameless : codexId = ""
  · simp [listWorkspaceEntries, nameless]
  cases accepted : page json request max "workspace_list" (codexId ++ "\x00" ++ relative) with
  | error message => simp [listWorkspaceEntries, nameless, accepted]
  | ok bounds =>
    obtain ⟨start, size⟩ := bounds
    obtain ⟨low, bounds⟩ := page_bounds accepted
    have passed : listWorkspaceEntries json max metadata read codexId relative request =
        .panicked ↔ list metadata read relative start size = .panicked := by
      simp only [listWorkspaceEntries, if_neg nameless, accepted]
      cases list metadata read relative start size with
      | refused code message | panicked | answered answer => simp
    rw [passed, list_panics metadata read relative low bounds]
    constructor
    · rintro ⟨dir, found, within, wraps⟩
      exact ⟨dir, start, size, nameless, found, rfl, within, wraps⟩
    · rintro ⟨dir, one, other, -, found, same, within, wraps⟩
      cases same
      exact ⟨dir, found, within, wraps⟩

end CodexRemote.Paging
