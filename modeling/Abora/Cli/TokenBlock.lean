import Abora.Lib.Lists
import Abora.Lib.TomlDocument
import Abora.Cli.Issue

/-!
# The block that is printed (`cmd_auth_generate_token`), and the file it is for (`from_str`)

The client prints a table of the token file, and the operator appends it. What is printed is the
name and the permissions between quotes, as they were given; what is read is a document in TOML, in
which a quote ends a string and a backslash begins an escape. `block_loads_iff` says for which names
and permissions the daemon loads what was given, and to which files the block can be added.

The parser of the daemon is a parameter, in two steps. `Lawful` is what is asked of it: that its
first step reads TOML (`Toml.Reads`), and of the second how tables become tokens. `plainParser`, at
the end of the module, is a parser that meets both, of files that have nothing but tokens in them.

A string is *verbatim* if it stands for itself between quotes. For the one direction the items of
the block are read off its lines (`items_block`). For the other, what was loaded tells what was
read: a name with a quote in it would have ended early, and behind it comes a line with a letter in
it before its first quote (`name_then_permissions`), so no other reading gives the same name.
-/

namespace Abora.Cli

open Lib Lib.Text Daemon

/-! ## What is printed -/

/-- The four lines to append, with the texts between quotes as they are. -/
def tokenBlock (name : String) (permissions : List String) (hash : String) : List String :=
  let perms := ", ".intercalate (permissions.map fun p => "\"" ++ p ++ "\"")
  ["  [[tokens]]",
    "  name = \"" ++ name ++ "\"",
    "  permissions = [" ++ perms ++ "]",
    "  secret_hash = \"" ++ hash ++ "\""]

/-- The permissions of the token: to read all, if none are given. -/
def GenerateTokenArgs.granted (args : GenerateTokenArgs) : List String :=
  if args.permissions = [] then ["read_all"] else args.permissions

/-- What `cmd_auth_generate_token` prints, or the error. Nothing is written to the token file. -/
def cmdAuthGenerateToken (digest : String → Hash)
    (urandom : (n : Nat) → Except String (Vector UInt8 n)) (args : GenerateTokenArgs) :
    Except String (List String) :=
  match args.issue urandom with
  | .error msg => .error s!"error: {msg}"
  | .ok secret =>
    let hash := sha256Hex digest secret
    .ok ([s!"secret:      {secret}", s!"secret_hash: {hash}", "",
        "Append this to the file referenced by [security].token_file (e.g. /etc/abora/auth.toml):"]
      ++ tokenBlock args.name args.granted hash ++
      ["", "note: the secret is shown only once. The daemon stores hashes only."])

/-- The block as text, each of its lines with a newline. -/
def blockText (digest : String → Hash) (args : GenerateTokenArgs) (secret : String) : String :=
  String.ofList (unlines
    ((tokenBlock args.name args.granted (sha256Hex digest secret)).map String.toList))

/-- What is printed has the block on its fifth to eighth line, for a secret that was given or drawn;
it is these lines that the operator copies. -/
theorem blockText_of_printed {digest : String → Hash}
    {urandom : (n : Nat) → Except String (Vector UInt8 n)} {args : GenerateTokenArgs}
    {printed : List String} (h : cmdAuthGenerateToken digest urandom args = .ok printed) :
    ∃ secret, args.issue urandom = .ok secret ∧ blockText digest args secret =
      String.ofList (unlines (((printed.drop 4).take 4).map String.toList)) := by
  unfold cmdAuthGenerateToken at h
  cases hissue : args.issue urandom with
  | error msg =>
    rw [hissue] at h
    cases h
  | ok secret =>
    rw [hissue] at h
    cases h
    exact ⟨secret, rfl, rfl⟩

/-- The file with the block on lines of its own behind it: a file whose last line is not ended gets
that end first. -/
def appended (file block : String) : String :=
  if Toml.Ended file.toList then file ++ block else file ++ "\n" ++ block

/-! ## What reads it -/

/-- `toml::from_str` at `RawFile`: the items of a text, and the tables they make. -/
structure TomlParser where
  items : Chars → Except String (List Toml.Item)
  load : List Toml.Item → Except String (List RawToken)

def TomlParser.parse (p : TomlParser) (text : String) : Except String (List RawToken) :=
  (p.items text.toList).bind p.load

def tokensHeader : Toml.Item := .arrayTable ["tokens"]

def tokenKeys (name : String) (permissions : List String) (hash : String) : List Toml.Item :=
  [.keyval ["name"] (.str name), .keyval ["permissions"] (.strings permissions),
    .keyval ["secret_hash"] (.str hash)]

/-- The keys before the next header. -/
def ownKeys (its : List Toml.Item) : List Toml.Item := its.takeWhile Toml.Item.isKeyval

/-- The tokens are written as an array in one place, at the top of the document. TOML lets nobody
add to such an array. -/
def InPlace (its : List Toml.Item) : Prop :=
  ∃ path v, .keyval ("tokens" :: path) v ∈ ownKeys its

/-- What is asked of the parser: that it reads TOML, what a table of a token makes, that one more
table makes one more token, and that an array in place is closed. -/
structure TomlParser.Lawful (p : TomlParser) : Prop where
  reads : Toml.Reads p.items
  table (name : String) (permissions : List String) (hash : String) :
    p.load (tokensHeader :: tokenKeys name permissions hash) =
      .ok [⟨some name, permissions, hash⟩]
  /-- One more header is one more element of the array, unless that is closed. -/
  another {its keys : List Toml.Item} {raw : List RawToken} {t : RawToken}
    (h : p.load its = .ok raw) (hkeys : ∀ i ∈ keys, i.isKeyval = true)
    (ht : p.load (tokensHeader :: keys) = .ok [t]) :
    (¬ InPlace its → p.load (its ++ tokensHeader :: keys) = .ok (raw ++ [t])) ∧
      (InPlace its → ∃ e, p.load (its ++ tokensHeader :: keys) = .error e)
  /-- A key has the one value that it is given. -/
  name {its : List Toml.Item} {raw : List RawToken} {s : String}
    (h : p.load (tokensHeader :: its) = .ok raw)
    (hkey : .keyval ["name"] (.str s) ∈ ownKeys its) : ∃ t ts, raw = t :: ts ∧ t.name = some s
  permissions {its : List Toml.Item} {raw : List RawToken} {v : Toml.Value}
    (h : p.load (tokensHeader :: its) = .ok raw)
    (hkey : .keyval ["permissions"] v ∈ ownKeys its) :
    ∃ t ts, raw = t :: ts ∧ v = .strings t.permissions

/-- The file gives its tokens as an array in one place. -/
def TomlParser.HoldsInPlace (p : TomlParser) (file : String) : Prop :=
  ∃ its, p.items file.toList = .ok its ∧ InPlace its

def issuedEntry (digest : String → Hash) (args : GenerateTokenArgs) (secret : String) : Entry :=
  ⟨⟨some args.name, args.permissions⟩, digest secret⟩

/-! ## The lines of the block -/

theorem listed_eq {permissions : List String} (hne : permissions ≠ []) :
    (", ".intercalate (permissions.map fun p => "\"" ++ p ++ "\"")).toList ++ [']'] =
      Toml.listed permissions := by
  induction permissions with
  | nil => exact absurd rfl hne
  | cons p permissions ih =>
    cases permissions with
    | nil => simp [Toml.listed, Toml.quoted]
    | cons q permissions =>
      have hrest := ih (List.cons_ne_nil q permissions)
      rw [List.map_cons, List.map_cons, String.intercalate_cons_cons, Toml.listed, ← hrest]
      · simp [Toml.quoted]
      · exact List.cons_ne_nil q permissions

theorem toList_blockText (digest : String → Hash) {args : GenerateTokenArgs}
    (hne : args.permissions ≠ []) (secret : String) :
    (blockText digest args secret).toList =
      Toml.headerLine "tokens".toList ++ '\n' ::
        (Toml.keyLine "name".toList (Toml.quoted args.name.toList) ++ '\n' ::
          (Toml.keyLine "permissions".toList ('[' :: Toml.listed args.permissions) ++ '\n' ::
            (Toml.keyLine "secret_hash".toList (Toml.quoted (sha256Hex digest secret).toList) ++
              ['\n']))) := by
  rw [← listed_eq hne]
  simp [blockText, tokenBlock, unlines, GenerateTokenArgs.granted, hne, Toml.headerLine,
    Toml.keyLine, Toml.quoted]

/-! ## Which blocks are read as they are meant -/

theorem items_line {p : TomlParser} (hp : p.Lawful) {line more : Chars} {its all : List Toml.Item}
    (h : p.items (line ++ ['\n']) = .ok its) (hmore : more.head? = some ' ') :
    p.items (line ++ '\n' :: more) = .ok all ↔
      ∃ its', p.items more = .ok its' ∧ all = its ++ its' := by
  have hmark : more.head? ≠ some (Char.ofNat 0xFEFF) := by
    rw [hmore]
    decide
  have hended : Toml.Ended (line ++ ['\n']) := .inr List.getLast?_concat
  have happend : p.items ((line ++ ['\n']) ++ more) = .ok all ↔
      ∃ its', p.items more = .ok its' ∧ all = its ++ its' := hp.reads.append h hended hmark
  rwa [List.append_assoc, List.singleton_append] at happend

theorem sha256Hex_verbatim (digest : String → Hash) (secret : String) :
    Toml.Verbatim (sha256Hex digest secret).toList := by
  have hscheme : Toml.Verbatim "sha256:".toList := Toml.verbatim_iff_all.mpr rfl
  have htext : (sha256Hex digest secret).toList =
      "sha256:".toList ++ hexEncode (digest secret).toList := by
    rw [sha256Hex, String.toList_append]
    exact congrArg _ String.toList_ofList
  intro c hc
  rw [htext, List.mem_append] at hc
  rcases hc with hc | hc
  · exact hscheme c hc
  · obtain ⟨d, hd, rfl⟩ := mem_hexEncode hc
    clear hc
    revert d
    decide

theorem bare_of_all {key : Chars} (hne : key ≠ []) (hall : key.all Toml.bareChar = true) :
    Toml.Bare key :=
  ⟨hne, List.all_eq_true.mp hall⟩

theorem bare_tokens : Toml.Bare "tokens".toList := bare_of_all (by simp) rfl

theorem bare_name : Toml.Bare "name".toList := bare_of_all (by simp) rfl

theorem bare_permissions : Toml.Bare "permissions".toList := bare_of_all (by simp) rfl

theorem bare_secretHash : Toml.Bare "secret_hash".toList := bare_of_all (by simp) rfl

/-- A block of verbatim strings says what it was printed for: a header and three keys. -/
theorem items_block {p : TomlParser} (hp : p.Lawful) (digest : String → Hash)
    {args : GenerateTokenArgs} (hne : args.permissions ≠ []) (secret : String)
    (hname : Toml.Verbatim args.name.toList)
    (hperms : ∀ q ∈ args.permissions, Toml.Verbatim q.toList) :
    p.items (blockText digest args secret).toList =
      .ok (tokensHeader ::
        tokenKeys args.name args.permissions (sha256Hex digest secret)) := by
  have hhash := hp.reads.string bare_secretHash (sha256Hex_verbatim digest secret)
  have hthird := (items_line hp (hp.reads.strings bare_permissions hperms) rfl).mpr
    ⟨_, hhash, rfl⟩
  have hsecond := (items_line hp (hp.reads.string bare_name hname) rfl).mpr ⟨_, hthird, rfl⟩
  have hfirst := (items_line hp (hp.reads.header bare_tokens) rfl).mpr ⟨_, hsecond, rfl⟩
  rw [toList_blockText digest hne secret, hfirst]
  simp only [String.ofList_toList]
  rfl

/-- The line behind the name has a letter in it before it has a quote. -/
theorem name_then_permissions (s text more : Chars) :
    ∃ after, Toml.quoted s ++ '\n' :: (Toml.keyLine "permissions".toList text ++ more) =
      '"' :: (s ++ '"' :: (['\n', ' ', ' ', 'p'] ++ after)) :=
  ⟨"ermissions".toList ++ ' ' :: '=' :: ' ' :: (text ++ more),
    by simp [Toml.quoted, Toml.keyLine]⟩

/-- And a block that is read as what it was printed for has verbatim strings. -/
theorem verbatim_of_parse {p : TomlParser} (hp : p.Lawful) {digest : String → Hash}
    {args : GenerateTokenArgs} {secret : String} (hne : args.permissions ≠ []) {t : RawToken}
    (h : p.parse (blockText digest args secret) = .ok [t]) (hname : t.name = some args.name)
    (hperms : t.permissions = args.permissions) :
    Toml.Verbatim args.name.toList ∧ ∀ q ∈ args.permissions, Toml.Verbatim q.toList := by
  unfold TomlParser.parse at h
  cases hits : p.items (blockText digest args secret).toList with
  | error e =>
    rw [hits] at h
    cases h
  | ok its =>
    rw [hits] at h
    have hload : p.load its = .ok [t] := h
    rw [toList_blockText digest hne secret] at hits
    obtain ⟨own, hown, rfl⟩ := (items_line hp (hp.reads.header bare_tokens) rfl).mp hits
    rw [String.ofList_toList] at hload
    -- the name read back as itself, and what ends its string is the quote that was written
    have hverbatim : Toml.Verbatim args.name.toList := by
      have hvalued := hown
      rw [Toml.keyLine_append] at hvalued
      obtain ⟨v, rest, rfl, hvalue⟩ := hp.reads.value bare_name hvalued
      obtain ⟨after, hafter⟩ := name_then_permissions args.name.toList
        ('[' :: Toml.listed args.permissions) _
      rw [hafter] at hvalue
      obtain ⟨value, tail, rfl, hstring⟩ := hvalue.of_quote
      obtain ⟨u, us, hone, hread⟩ := hp.name hload List.mem_cons_self
      obtain ⟨rfl, -⟩ := List.cons.inj hone
      rw [hname, Option.some_inj] at hread
      have hchars : value = args.name.toList := by rw [hread, String.toList_ofList]
      rw [hchars] at hstring
      have hmark : Toml.Marker 'p' := by constructor <;> decide
      have hsep : '"' ∉ ['\n', ' ', ' ', 'p'] := by decide
      exact (Toml.StringAt.verbatim hmark (by simp) hsep hstring).1
    refine ⟨hverbatim, ?_⟩
    -- with the name out of the way, the same of the permissions
    obtain ⟨own', hown', rfl⟩ := (items_line hp (hp.reads.string bare_name hverbatim) rfl).mp hown
    rw [Toml.keyLine_append] at hown'
    obtain ⟨v, rest, rfl, hvalue⟩ := hp.reads.value bare_permissions hown'
    obtain ⟨u, us, hone, rfl⟩ := hp.permissions hload
      (List.mem_cons_of_mem _ List.mem_cons_self)
    obtain ⟨rfl, -⟩ := List.cons.inj hone
    rw [hperms] at hvalue
    exact hvalue.of_bracket.verbatim hne

/-! ## What the daemon loads -/

theorem fromStr_ok_iff {toml : String → Except String (List RawToken)} {text : String}
    {store : TokenStore} :
    TokenStore.fromStr toml text = some (.ok store) ↔
      ∃ raw, toml text = .ok raw ∧ entriesOf raw = some (.ok store.entries) := by
  unfold TokenStore.fromStr
  obtain ⟨entries⟩ := store
  cases toml text with
  | error e => simp
  | ok raw =>
    cases hraw : entriesOf raw with
    | none => simp [hraw]
    | some r => cases r <;> simp [hraw, Except.map]

/-- The items of a file with a block behind it are its own and the block's. -/
theorem items_appended {p : TomlParser} (hp : p.Lawful) {file block : String}
    {its its' : List Toml.Item} (hfile : p.items file.toList = .ok its)
    (hblock : p.items block.toList = .ok its') (hhead : block.toList.head? = some ' ') :
    p.items (appended file block).toList = .ok (its ++ its') := by
  have hmark : block.toList.head? ≠ some (Char.ofNat 0xFEFF) := by
    rw [hhead]
    decide
  unfold appended
  split
  · next hended =>
    rw [String.toList_append]
    exact (hp.reads.append hfile hended hmark).mpr ⟨its', hblock, rfl⟩
  · have hnewline : (file ++ "\n" ++ block).toList = (file.toList ++ ['\n']) ++ block.toList := by
      rw [String.toList_append, String.toList_append]
      rfl
    rw [hnewline]
    exact (hp.reads.append (hp.reads.ended hfile) (.inr List.getLast?_concat) hmark).mpr
      ⟨its', hblock, rfl⟩

theorem parse_ok_iff {p : TomlParser} {text : String} {raw : List RawToken} :
    p.parse text = .ok raw ↔ ∃ its, p.items text.toList = .ok its ∧ p.load its = .ok raw := by
  unfold TomlParser.parse
  cases p.items text.toList with
  | error e => simp [Except.bind]
  | ok its => simp [Except.bind]

/-- A block of verbatim strings is one token, the one that was asked for. -/
theorem loads_of_verbatim {p : TomlParser} (hp : p.Lawful) (digest : String → Hash)
    {args : GenerateTokenArgs} (hne : args.permissions ≠ []) (secret : String)
    (hname : Toml.Verbatim args.name.toList)
    (hperms : ∀ q ∈ args.permissions, Toml.Verbatim q.toList) :
    TokenStore.fromStr p.parse (blockText digest args secret) =
      some (.ok ⟨[issuedEntry digest args secret]⟩) := by
  have hblock := items_block hp digest hne secret hname hperms
  have htable := hp.table args.name args.permissions (sha256Hex digest secret)
  refine fromStr_ok_iff.mpr ⟨_, parse_ok_iff.mpr ⟨_, hblock, htable⟩, ?_⟩
  exact entriesOf_ok_iff.mpr (.cons ⟨rfl, decode_sha256Hex digest secret⟩ .nil)

theorem verbatim_of_loads {p : TomlParser} (hp : p.Lawful) {digest : String → Hash}
    {args : GenerateTokenArgs} (hne : args.permissions ≠ []) {secret : String}
    (h : TokenStore.fromStr p.parse (blockText digest args secret) =
      some (.ok ⟨[issuedEntry digest args secret]⟩)) :
    Toml.Verbatim args.name.toList ∧ ∀ q ∈ args.permissions, Toml.Verbatim q.toList := by
  obtain ⟨raw, hparse, hentries⟩ := fromStr_ok_iff.mp h
  rw [entriesOf_ok_iff] at hentries
  obtain ⟨t, ts, ⟨htoken, -⟩, hnone, rfl⟩ := List.forall₂_cons_right_iff.mp hentries
  rw [List.forall₂_nil_right_iff.mp hnone] at hparse
  obtain ⟨hname, hperms⟩ := StoredToken.mk.inj htoken
  exact verbatim_of_parse hp hne hparse hname.symm hperms.symm

/-- Behind a file that loads, such a block is one token more, unless the file's are in one place. -/
theorem adds_iff {p : TomlParser} (hp : p.Lawful) (digest : String → Hash)
    {args : GenerateTokenArgs} (hne : args.permissions ≠ []) (secret : String) {file : String}
    {store : TokenStore} (hfile : TokenStore.fromStr p.parse file = some (.ok store))
    (hname : Toml.Verbatim args.name.toList)
    (hperms : ∀ q ∈ args.permissions, Toml.Verbatim q.toList) :
    TokenStore.fromStr p.parse (appended file (blockText digest args secret)) =
        some (.ok ⟨store.entries ++ [issuedEntry digest args secret]⟩) ↔
      ¬ p.HoldsInPlace file := by
  let table : RawToken := ⟨some args.name, args.permissions, sha256Hex digest secret⟩
  obtain ⟨raw, hparse, hentries⟩ := fromStr_ok_iff.mp hfile
  obtain ⟨its, hits, hload⟩ := parse_ok_iff.mp hparse
  have htable := hp.table args.name args.permissions (sha256Hex digest secret)
  have hkeys : ∀ i ∈ tokenKeys args.name args.permissions (sha256Hex digest secret),
      i.isKeyval = true := by simp [tokenKeys, Toml.Item.isKeyval]
  -- a table more is refused exactly when the file has its tokens in one piece already
  obtain ⟨hadds, hrefuses⟩ := hp.another hload hkeys htable
  have happended := items_appended hp hits (items_block hp digest hne secret hname hperms)
    (by rw [toList_blockText digest hne secret]; rfl)
  constructor
  · intro hadded ⟨its', hits', hplace⟩
    rw [hits] at hits'
    cases hits'
    obtain ⟨e, herror⟩ := hrefuses hplace
    obtain ⟨_, hparsed, -⟩ := fromStr_ok_iff.mp hadded
    obtain ⟨all, hall, hloaded⟩ := parse_ok_iff.mp hparsed
    rw [happended] at hall
    cases hall
    rw [herror] at hloaded
    cases hloaded
  · intro hplace
    have hadded := hadds fun h => hplace ⟨its, hits, h⟩
    refine fromStr_ok_iff.mpr
      ⟨raw ++ [table], parse_ok_iff.mpr ⟨_, happended, hadded⟩, ?_⟩
    have hlen : [table].length = [issuedEntry digest args secret].length := rfl
    rw [entriesOf_ok_iff] at hentries ⊢
    exact (forall₂_append_iff hlen).mpr
      ⟨hentries, .cons ⟨rfl, decode_sha256Hex digest secret⟩ .nil⟩

/-- **A block is loaded as what was given, and added to a file, exactly when** the name and the
permissions are verbatim and the file does not hold its tokens in one place. Permissions have to be
given: without them the client prints `read_all`, and that is what is loaded. -/
theorem block_loads_iff {p : TomlParser} (hp : p.Lawful) (digest : String → Hash)
    (args : GenerateTokenArgs) (hne : args.permissions ≠ []) (secret : String) {file : String}
    {store : TokenStore} (hfile : TokenStore.fromStr p.parse file = some (.ok store)) :
    (TokenStore.fromStr p.parse (blockText digest args secret) =
          some (.ok ⟨[issuedEntry digest args secret]⟩) ∧
        TokenStore.fromStr p.parse (appended file (blockText digest args secret)) =
          some (.ok ⟨store.entries ++ [issuedEntry digest args secret]⟩)) ↔
      Toml.Verbatim args.name.toList ∧ (∀ q ∈ args.permissions, Toml.Verbatim q.toList) ∧
        ¬ p.HoldsInPlace file := by
  constructor
  · intro ⟨hloads, hadded⟩
    obtain ⟨hname, hperms⟩ := verbatim_of_loads hp hne hloads
    exact ⟨hname, hperms, (adds_iff hp digest hne secret hfile hname hperms).mp hadded⟩
  · intro ⟨hname, hperms, hplace⟩
    exact ⟨loads_of_verbatim hp digest hne secret hname hperms,
      (adds_iff hp digest hne secret hfile hname hperms).mpr hplace⟩

/-! ## A parser of plain token files -/

def valuesOf (key : String) (its : List Toml.Item) : List Toml.Value :=
  its.filterMap fun i =>
    match i with
    | .keyval [k] v => if k = key then some v else none
    | _ => none

def tokenOf (keys : List Toml.Item) : Except String RawToken :=
  match valuesOf "secret_hash" keys, valuesOf "name" keys, valuesOf "permissions" keys with
  | [.str hash], [.str name], [.strings permissions] => .ok ⟨some name, permissions, hash⟩
  | [.str hash], [.str name], [] => .ok ⟨some name, [], hash⟩
  | [.str hash], [], [.strings permissions] => .ok ⟨none, permissions, hash⟩
  | [.str hash], [], [] => .ok ⟨none, [], hash⟩
  | _, _, _ => .error "not a table of a token"

/-- One item more, in front of the keys and the tokens that were gathered. -/
def gatherItem (i : Toml.Item) (r : List Toml.Item × List RawToken) :
    Except String (List Toml.Item × List RawToken) :=
  match i with
  | .keyval path v => .ok (.keyval path v :: r.1, r.2)
  | .table _ => .error "a table of something else"
  | .arrayTable path =>
    if path = ["tokens"] then (tokenOf r.1).map fun t => ([], t :: r.2)
    else .error "a table of something else"

/-- The keys before the first header, and the tokens behind it. -/
def gather : List Toml.Item → Except String (List Toml.Item × List RawToken)
  | [] => .ok ([], [])
  | i :: its => (gather its).bind (gatherItem i)

def startsTokens : Toml.Item → Bool
  | .keyval (key :: _) _ => key == "tokens"
  | _ => false

def plainLoad (its : List Toml.Item) : Except String (List RawToken) :=
  match gather its with
  | .error e => .error e
  | .ok (keys, tokens) =>
    if keys.any startsTokens then .error "an array in one place" else .ok tokens

def plainParser : TomlParser := ⟨Toml.plainItems, plainLoad⟩

theorem gather_cons_iff {i : Toml.Item} {its keys : List Toml.Item} {tokens : List RawToken} :
    gather (i :: its) = .ok (keys, tokens) ↔ ∃ own ts, gather its = .ok (own, ts) ∧
      (i.isKeyval = true ∧ keys = i :: own ∧ tokens = ts ∨
        i = tokensHeader ∧ keys = [] ∧ ∃ t, tokenOf own = .ok t ∧ tokens = t :: ts) := by
  rw [gather]
  cases gather its with
  | error e => simp [Except.bind]
  | ok r =>
    obtain ⟨own, ts⟩ := r
    simp only [Except.bind, Except.ok.injEq, Prod.mk.injEq]
    cases i with
    | keyval path v => simp [gatherItem, Toml.Item.isKeyval, tokensHeader, eq_comm]
    | table path => simp [gatherItem, Toml.Item.isKeyval, tokensHeader]
    | arrayTable path =>
      by_cases hpath : path = ["tokens"]
      · cases htoken : tokenOf own with
        | error e =>
          simp [gatherItem, Toml.Item.isKeyval, tokensHeader, hpath, htoken, Except.map]
        | ok t =>
          simp [gatherItem, Toml.Item.isKeyval, tokensHeader, hpath, htoken, Except.map, eq_comm]
      · simp [gatherItem, Toml.Item.isKeyval, tokensHeader, hpath]

theorem gather_append {its more keys : List Toml.Item} {tokens others : List RawToken}
    (h : gather its = .ok (keys, tokens)) (hmore : gather more = .ok ([], others)) :
    gather (its ++ more) = .ok (keys, tokens ++ others) := by
  induction its generalizing keys tokens with
  | nil =>
    cases h
    exact hmore
  | cons i its ih =>
    obtain ⟨own, ts, hrest, ⟨hkeyval, rfl, rfl⟩ | ⟨rfl, rfl, t, ht, rfl⟩⟩ := gather_cons_iff.mp h
    · exact gather_cons_iff.mpr ⟨own, _, ih hrest, .inl ⟨hkeyval, rfl, rfl⟩⟩
    · exact gather_cons_iff.mpr ⟨own, _, ih hrest, .inr ⟨rfl, rfl, t, ht, rfl⟩⟩

theorem gather_keys {its keys : List Toml.Item} {tokens : List RawToken}
    (h : gather its = .ok (keys, tokens)) : keys = ownKeys its := by
  induction its generalizing keys tokens with
  | nil =>
    cases h
    rfl
  | cons i its ih =>
    obtain ⟨own, ts, hrest, ⟨hkeyval, rfl, rfl⟩ | ⟨rfl, rfl, t, ht, rfl⟩⟩ := gather_cons_iff.mp h
    · rw [ih hrest, ownKeys, ownKeys, List.takeWhile_cons_of_pos hkeyval]
    · rfl

theorem plainLoad_ok_iff {its : List Toml.Item} {tokens : List RawToken} :
    plainLoad its = .ok tokens ↔
      gather its = .ok (ownKeys its, tokens) ∧ (ownKeys its).any startsTokens = false := by
  unfold plainLoad
  cases hgather : gather its with
  | error e => simp
  | ok r =>
    obtain ⟨keys, ts⟩ := r
    have hkeys := gather_keys hgather
    subst hkeys
    by_cases hany : (ownKeys its).any startsTokens = true
    · simp only [hany]
      simp
    · simp only [if_neg hany, Bool.not_eq_true] at hany ⊢
      simp [hany]

theorem plainLoad_header {its : List Toml.Item} {raw : List RawToken}
    (h : plainLoad (tokensHeader :: its) = .ok raw) :
    ∃ t ts, raw = t :: ts ∧ tokenOf (ownKeys its) = .ok t := by
  obtain ⟨hgather, -⟩ := plainLoad_ok_iff.mp h
  obtain ⟨own, ts, hrest, ⟨hkeyval, -⟩ | ⟨-, -, t, ht, rfl⟩⟩ := gather_cons_iff.mp hgather
  · cases hkeyval
  · rw [gather_keys hrest] at ht
    exact ⟨t, ts, rfl, ht⟩

theorem mem_valuesOf {key : String} {its : List Toml.Item} {v : Toml.Value}
    (h : .keyval [key] v ∈ its) : v ∈ valuesOf key its :=
  List.mem_filterMap.mpr ⟨_, h, if_pos rfl⟩

theorem tokenOf_fields {keys : List Toml.Item} {t : RawToken} (h : tokenOf keys = .ok t) :
    (∀ v ∈ valuesOf "name" keys, ∃ s, v = .str s ∧ t.name = some s) ∧
      ∀ v ∈ valuesOf "permissions" keys, v = .strings t.permissions := by
  unfold tokenOf at h
  split at h <;> cases h <;> simp_all

theorem plainParser_lawful : plainParser.Lawful where
  reads := Toml.plainItems_reads
  table name permissions hash := by
    simp [plainParser, plainLoad, tokensHeader, tokenKeys, gather, gatherItem, tokenOf, valuesOf,
      Except.bind, Except.map]
  another {its keys raw t} h hkeys ht := by
    obtain ⟨hits, hplain⟩ := plainLoad_ok_iff.mp h
    have hall := gather_append hits (plainLoad_ok_iff.mp ht).1
    constructor
    · intro _
      have hown := gather_keys hall
      refine plainLoad_ok_iff.mpr ⟨?_, ?_⟩
      · rw [← hown]
        exact hall
      · rw [← hown]
        exact hplain
    · intro ⟨path, v, hmem⟩
      have hbad := List.any_eq_false.mp hplain _ hmem
      exact absurd rfl hbad
  name h hkey := by
    obtain ⟨t, ts, hraw, ht⟩ := plainLoad_header h
    obtain ⟨s, hs, hname⟩ := (tokenOf_fields ht).1 _ (mem_valuesOf hkey)
    cases hs
    exact ⟨t, ts, hraw, hname⟩
  permissions h hkey := by
    obtain ⟨t, ts, hraw, ht⟩ := plainLoad_header h
    exact ⟨t, ts, hraw, (tokenOf_fields ht).2 _ (mem_valuesOf hkey)⟩

/-! ## Two blocks, and a name with quotes -/

def monitorArgs : GenerateTokenArgs := { name := "monitor", permissions := ["read_all"] }

def opsArgs : GenerateTokenArgs :=
  { name := "ops", permissions := ["read:health", "manage:updates"] }

/-- A block for updates, behind one to read: the file has the two tokens. -/
theorem block_loads_behind_another :
    let digest : String → Hash := fun _ => Vector.replicate 32 7
    TokenStore.fromStr plainParser.parse
        (appended (blockText digest monitorArgs "s3cret") (blockText digest opsArgs "hunter2")) =
      some (.ok ⟨[issuedEntry digest monitorArgs "s3cret",
        issuedEntry digest opsArgs "hunter2"]⟩) := by
  intro digest
  have hmonitor : Toml.Verbatim monitorArgs.name.toList ∧
      ∀ q ∈ monitorArgs.permissions, Toml.Verbatim q.toList := by
    simp only [Toml.verbatim_iff_all, ← List.all_eq_true]
    exact ⟨rfl, rfl⟩
  have hops : Toml.Verbatim opsArgs.name.toList ∧
      ∀ q ∈ opsArgs.permissions, Toml.Verbatim q.toList := by
    simp only [Toml.verbatim_iff_all, ← List.all_eq_true]
    exact ⟨rfl, rfl⟩
  have hne : monitorArgs.permissions ≠ [] := by decide
  have hfile := loads_of_verbatim plainParser_lawful digest hne "s3cret" hmonitor.1 hmonitor.2
  refine ((block_loads_iff plainParser_lawful digest opsArgs (by decide) "hunter2" hfile).mpr
    ⟨hops.1, hops.2, ?_⟩).2
  intro ⟨its, hits, path, v, hmem⟩
  rw [items_block plainParser_lawful digest hne "s3cret" hmonitor.1 hmonitor.2] at hits
  cases hits
  cases hmem

/-- **A quote in a name ends the string it is printed into**: what is loaded is not that name. -/
theorem quoted_name_not_loaded :
    ¬ ∀ (p : TomlParser) (digest : String → Hash) (args : GenerateTokenArgs) (secret : String),
        p.Lawful → args.permissions ≠ [] →
        TokenStore.fromStr p.parse (blockText digest args secret) =
          some (.ok ⟨[issuedEntry digest args secret]⟩) := by
  intro h
  let args : GenerateTokenArgs := { name := "the \"ops\" token", permissions := ["read_all"] }
  have hne : args.permissions ≠ [] := List.cons_ne_nil _ _
  have hloads := h plainParser (fun _ => Vector.replicate 32 7) args "s3cret" plainParser_lawful hne
  have hname := (verbatim_of_loads plainParser_lawful hne hloads).1
  have hquote := hname '"' (by simp [args])
  cases hquote

end Abora.Cli
