import Mathlib.Data.List.Basic

/-!
# The bearer-token store (`aborad/src/tokens.rs`)

A store is the entries of one token file, each a record and the SHA-256 of its secret. A presented
secret is hashed and compared with every entry by `ctEq`, whose loop never stops early; `ctEq_iff`
says that it nevertheless decides equality, so that nothing after this module looks at it again.
SHA-256 itself is a parameter: no result depends on which function it is, and two secrets with one
hash are one secret here as they are to the daemon.

How a file becomes a store is `Abora.Daemon.TokenFile`, and which entry a secret finds when several
have its hash `Abora.Daemon.Order`.
-/

namespace Abora.Daemon

abbrev Hash := Vector UInt8 32

/-- A token record after successful authentication. A permission it lists and the framework does not
know grants nothing. -/
structure StoredToken where
  name : Option String
  permissions : List String
  deriving DecidableEq, Repr

/-- `read_all` covers every `read:*` permission and nothing else. -/
def StoredToken.grants (token : StoredToken) (permissionId : String) : Bool :=
  token.permissions.any fun p =>
    p == permissionId || (p == "read_all" && "read:".toList.isPrefixOf permissionId.toList)

structure Entry where
  token : StoredToken
  hash : Hash
  deriving DecidableEq

/-- An immutable, in-memory view of a token file. -/
structure TokenStore where
  entries : List Entry
  deriving DecidableEq

/-- `ct_eq`: the differences of all bytes are collected before any is judged. -/
def ctEq (a b : Hash) : Bool :=
  (List.zip a.toList b.toList).foldl (fun diff p => diff ||| (p.1 ^^^ p.2)) 0 == 0

namespace TokenStore

def len (store : TokenStore) : Nat := store.entries.length

/-- Look up a bearer secret; `digest` is the SHA-256 of its bytes. The first entry with the hash is
the answer. -/
def find (digest : String → Hash) (store : TokenStore) (bearer : String) : Option StoredToken :=
  (store.entries.find? fun e => ctEq e.hash (digest bearer)).map Entry.token

end TokenStore

/-! ## The comparison decides equality -/

theorem foldl_xor_eq_zero (l : List (UInt8 × UInt8)) (diff : UInt8) :
    l.foldl (fun diff p => diff ||| (p.1 ^^^ p.2)) diff = 0 ↔
      diff = 0 ∧ ∀ p ∈ l, p.1 = p.2 := by
  induction l generalizing diff with
  | nil => simp
  | cons p l ih =>
    rw [List.foldl_cons, ih, UInt8.or_eq_zero_iff, UInt8.xor_eq_zero_iff, List.forall_mem_cons,
      and_assoc]

theorem zip_all_eq_iff {a b : List UInt8} (hlen : a.length = b.length) :
    (∀ p ∈ List.zip a b, p.1 = p.2) ↔ a = b := by
  induction a generalizing b with
  | nil => simp [List.length_eq_zero_iff.mp hlen.symm]
  | cons x a ih =>
    cases b with
    | nil => cases hlen
    | cons y b =>
      rw [List.zip_cons_cons, List.forall_mem_cons, ih (Nat.succ.inj hlen), List.cons_eq_cons]

/-- The collected differences are zero exactly when every one of them is. -/
theorem ctEq_iff {a b : Hash} : ctEq a b = true ↔ a = b := by
  rw [ctEq, beq_iff_eq, foldl_xor_eq_zero, zip_all_eq_iff (by simp), Vector.toList_inj]
  exact and_iff_right rfl

/-- **A secret is found exactly when some entry has its hash.** -/
theorem find_isSome_iff {digest : String → Hash} {store : TokenStore} {bearer : String} :
    (store.find digest bearer).isSome ↔ ∃ e ∈ store.entries, e.hash = digest bearer := by
  simp only [TokenStore.find, Option.isSome_map, List.find?_isSome, ctEq_iff]

end Abora.Daemon
