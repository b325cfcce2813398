import Abora.Lib.Text

/-!
# The service registry (`abora-services/src/lib.rs`)

Filtering and paging of a list of units, and the errors discovery can end in. What the init manager
answers is not here: `detail` takes it as an argument, and so does every caller.

A query is applied to a list that has already been collected, so it is a function of the two. What a
page is, in terms of the list, is `Abora.Daemon.Pages`; what the list is, in terms of what
`systemctl` prints, is `Abora.Services.Systemd`.
-/

namespace Abora.Services

open Lib.Text

inductive ServiceState where
  | running | stopped | failed | activating | deactivating | unknown
  deriving DecidableEq, Repr

structure ServiceStatus where
  name : String
  state : ServiceState
  enabled : Option Bool
  description : Option String
  deriving DecidableEq, Repr

structure ServiceDetail where
  name : String
  loadState : String
  activeState : String
  subState : String
  enabled : Option Bool
  description : Option String
  fragmentPath : Option String
  execStart : Option String
  mainPid : Option Nat
  memoryBytes : Option Nat
  deriving DecidableEq, Repr

inductive ServicesError where
  | notSupported
  | systemd (message : String)
  | notFound (name : String)
  | parse (message : String)
  deriving DecidableEq, Repr

def ServicesError.text : ServicesError → String
  | .notSupported => "service registry is not supported on this platform"
  | .systemd message => s!"could not query the system service manager: {message}"
  | .notFound name => s!"no such unit: {name}"
  | .parse message => s!"unexpected output from the system service manager: {message}"

/-- A unit name: something that ends in `.service`, is no option and has no slash or white space in
it. It is the only thing from outside that is ever put on a command line. -/
def validateUnitName (name : String) : Bool :=
  let cs := name.toList
  !cs.isEmpty && !(cs.head? == some '-') &&
    !(cs.any fun c => ['/', '\\', ' ', '\t', '\n', '\r'].contains c) &&
    ".service".toList.isSuffixOf cs

/-- `detail`; `ask` is what the init manager answers to a name that passed. The name is trimmed
first. -/
def detail (ask : String → Except ServicesError ServiceDetail) (name : String) :
    Except ServicesError ServiceDetail :=
  let name := String.ofList (trim name.toList)
  if validateUnitName name = false then .error (.systemd s!"`{name}` is not a valid unit name")
  else ask name

/-- A pure filter and pager. Everything that is absent lets everything through. -/
structure ServiceQuery where
  state : Option ServiceState := none
  enabled : Option Bool := none
  text : Option String := none
  limit : Option Nat := none
  offset : Nat := 0
  deriving DecidableEq, Repr

/-- `str::contains`, on texts in ASCII lowercase. -/
def containsIgnoringCase (text needle : String) : Bool :=
  (text.toList.map Char.toLower).tails.any (needle.toList.map Char.toLower).isPrefixOf

namespace ServiceQuery

/-- `matches`: whether a service satisfies the filters. -/
def matchesFilters (query : ServiceQuery) (service : ServiceStatus) : Bool :=
  query.state.all (· == service.state) &&
  query.enabled.all (fun enabled => service.enabled == some enabled) &&
  query.text.all fun text =>
    containsIgnoringCase service.name text ||
      service.description.any fun d => containsIgnoringCase d text

def totalMatching (query : ServiceQuery) (services : List ServiceStatus) : Nat :=
  (services.filter query.matchesFilters).length

/-- Filter, then cut out the page. A limit of zero is none. -/
def apply (query : ServiceQuery) (services : List ServiceStatus) : List ServiceStatus :=
  let matched := services.filter query.matchesFilters
  if matched = [] then []
  else
    let start := min query.offset matched.length
    let stop :=
      match query.limit with
      | some limit => if 0 < limit then min (start + limit) matched.length else matched.length
      | none => matched.length
    (matched.take stop).drop start

end ServiceQuery

end Abora.Services
