import Casket.Pythonexec.Wsgi
import Casket.Worker.ReaderRuns
import Mathlib.Data.List.Induction

/-! The URL of a request is parsed from its `Host` header and its target, put behind each
other. What the application sees of it is what stands behind the authority in that text,
which begins inside the header if the header has a delimiter in it.
-/

namespace Casket

-----------------------------------------------------------------------------------------
-- Where an authority ends
-----------------------------------------------------------------------------------------

/-- A character the URL parser removes wherever it stands. -/
def urlRemoved (c : Char) : Bool := c = '\t' || c = '\n' || c = '\r'

/-- A slash in front of an authority, of which any number is skipped. -/
def urlSlash (c : Char) : Bool := c = '/' || c = '\\'

/-- A character that ends an authority. -/
def urlDelimiter (c : Char) : Bool := urlSlash c || c = '?' || c = '#'

/-- What stands behind the authority in a text behind `http://`. -/
def behindAuthority (text : String) : List Char :=
  ((text.toList.filter (!urlRemoved ·)).dropWhile urlSlash).dropWhile (!urlDelimiter ·)

/-- What is documented of `Url::parse` on the text of an http URL: its path and its query are
read from what stands behind the authority.
-/
structure Crates.SplitsUrls (crates : Crates) (pathOf : List Char → String)
    (queryOf : List Char → Option String)
    : Prop where
  path
    : ∀ {text url},
        crates.parseUrl ("http://" ++ text) = some url → url.path = pathOf (behindAuthority text)
  query
    : ∀ {text url},
        crates.parseUrl ("http://" ++ text) = some url →
        url.query = queryOf (behindAuthority text)

/-- A host that is an authority and nothing else: it has some character, and no delimiter. -/
structure PlainHost (host : String) : Prop where
  undelimited : ∀ c ∈ host.toList, urlDelimiter c = false
  some_ : ∃ c ∈ host.toList, urlRemoved c = false

/-- Behind a plain host the target begins. -/
theorem behindAuthority_plain {host target : String} (plain : PlainHost host)
    (origin : startsWith target "/" = true)
    : behindAuthority (host ++ target) = target.toList.filter (!urlRemoved ·) := by
  obtain ⟨rest, path⟩ : ∃ rest, target.toList = '/' :: rest := by
    obtain ⟨rest, same⟩ := List.isPrefixOf_iff_prefix.mp origin
    exact ⟨rest, same.symm⟩
  have slash : urlRemoved '/' = false := by decide
  have kept
      : ∀ c ∈ host.toList.filter (!urlRemoved ·), (!urlDelimiter c) = true := by
    intro c member
    rw [plain.undelimited c (List.mem_of_mem_filter member)]
    rfl
  obtain ⟨first, others, front⟩
      : ∃ first others, host.toList.filter (!urlRemoved ·) = first :: others := by
    obtain ⟨c, member, visible⟩ := plain.some_
    apply List.exists_cons_of_ne_nil
    apply List.ne_nil_of_mem (a := c)
    rw [List.mem_filter, visible]
    exact ⟨member, rfl⟩
  have solid : urlSlash first = false := by
    have other := kept first (front ▸ List.mem_cons_self)
    rw [urlDelimiter, Bool.not_eq_true', Bool.or_eq_false_iff, Bool.or_eq_false_iff] at other
    exact other.1.1
  have target_eq
      : target.toList.filter (!urlRemoved ·) = '/' :: rest.filter (!urlRemoved ·) := by
    rw [path, List.filter_cons, slash]
    rfl
  rw [behindAuthority, String.toList_append, List.filter_append, front, List.cons_append,
    List.dropWhile_cons, solid, target_eq]
  rw [front] at kept
  simp only [Bool.false_eq_true, if_false]
  rw [← List.cons_append, List.dropWhile_append_of_pos kept]
  rfl

-----------------------------------------------------------------------------------------
-- What an application sees of a URL
-----------------------------------------------------------------------------------------

/-- The entry that is set last under a key is the one that is found. -/
theorem lookup_environ {items : List (String × EnvironValue)} {environ : Environ}
    {key : String}
    : (items.foldl (fun environ (key, value) => environ.insert key value) environ).lookup key
      = ((items.filter (·.1 = key)).getLast?.map Prod.snd).or (environ.lookup key) := by
  induction items using List.reverseRecOn with
  | nil => rfl
  | append_singleton items item ih =>
      rw [List.foldl_append, List.foldl_cons, List.foldl_nil, List.filter_append]
      by_cases same : item.1 = key
      · subst same
        simp
      · have other : key ≠ item.1 := fun eq => same eq.symm
        rw [AList.lookup_insert_ne other, ih]
        simp [same]

/-- The names of the request's own headers are none of the standard ones. -/
theorem headerEntries_apart {headers : List (String × String)} {key : String}
    (apart : key.toList.head? ≠ some 'H')
    : (headerEntries headers).filter (·.1 = key) = [] := by
  rw [List.filter_eq_nil_iff]
  intro entry member
  obtain ⟨⟨name, value⟩, -, rfl⟩ := List.mem_map.mp member
  simp only [decide_eq_true_eq]
  rintro rfl
  apply apart
  rw [String.toList_append]
  rfl

/-- What an application finds of the URL of its request. -/
structure SeesRoute (environ : Environ) (url : Url) : Prop where
  scriptName : environ.lookup "SCRIPT_NAME" = some (.text url.path)
  pathInfo : environ.lookup "PATH_INFO" = some (.text url.path)
  queryString : environ.lookup "QUERY_STRING" = url.query.map .text

/-- An optional entry under another key, or under the key itself. -/
theorem filter_entry {α : Type} (value : Option α) (name key : String)
    (make : α → EnvironValue)
    : ((value.map fun value => (name, make value)).toList.filter (·.1 = key))
      = if name = key then (value.map fun value => (name, make value)).toList else [] := by
  cases value with
  | none => simp
  | some value => by_cases same : name = key <;> simp [same]

/-- The environment of a request shows the path and the query of its URL. -/
theorem buildEnviron_route (server : String × UInt16) (req : HttpRequest)
    : SeesRoute (buildEnviron server req).1 req.url := by
  have lookup (key : String) (apart : key.toList.head? ≠ some 'H')
      : (buildEnviron server req).1.lookup key
        = (((environItems server req).filter (·.1 = key)).getLast?.map Prod.snd) := by
    rw [buildEnviron, lookup_environ]
    simp
  have entries (key : String) (apart : key.toList.head? ≠ some 'H')
      : (headerEntries req.headers).filter (·.1 = key) = [] :=
    headerEntries_apart apart
  refine ⟨?_, ?_, ?_⟩
  · rw [lookup "SCRIPT_NAME" (by decide)]
    simp [environItems, List.filter_append, filter_entry, entries "SCRIPT_NAME" (by decide)]
  · rw [lookup "PATH_INFO" (by decide)]
    simp [environItems, List.filter_append, filter_entry, entries "PATH_INFO" (by decide)]
  · rw [lookup "QUERY_STRING" (by decide)]
    simp [environItems, List.filter_append, filter_entry, entries "QUERY_STRING" (by decide)]
    cases req.url.query <;> rfl

-----------------------------------------------------------------------------------------
-- Two hosts
-----------------------------------------------------------------------------------------

/-- A request for a target that the reader accepted with a host. -/
def AcceptedWith (crates : Crates) (target host : String) (req : HttpRequest) : Prop :=
  ∃ rng request accepted rest,
    request.path = some target
    ∧ hostOf request.headers = some host
    ∧ PartialHttpReq.new crates rng request = .ok (.ok accepted)
    ∧ req = (accepted.withBody rest).toHttpRequest

/-- Two requests with the same path and the same query, for the code and for an application. -/
structure SameRoute (server : String × UInt16) (left right : HttpRequest) : Prop where
  path : left.url.path = right.url.path
  query : left.url.query = right.url.query
  scriptName
    : (buildEnviron server left).1.lookup "SCRIPT_NAME"
      = (buildEnviron server right).1.lookup "SCRIPT_NAME"
  pathInfo
    : (buildEnviron server left).1.lookup "PATH_INFO"
      = (buildEnviron server right).1.lookup "PATH_INFO"
  queryString
    : (buildEnviron server left).1.lookup "QUERY_STRING"
      = (buildEnviron server right).1.lookup "QUERY_STRING"

/-- An application sees no more of a URL than its path and its query. -/
theorem sameRoute_iff (server : String × UInt16) (left right : HttpRequest)
    : SameRoute server left right
      ↔ left.url.path = right.url.path ∧ left.url.query = right.url.query := by
  have sees := buildEnviron_route server left
  have sees' := buildEnviron_route server right
  constructor
  · exact fun same => ⟨same.path, same.query⟩
  · rintro ⟨path, query⟩
    refine ⟨path, query, ?_, ?_, ?_⟩
    · rw [sees.scriptName, sees'.scriptName, path]
    · rw [sees.pathInfo, sees'.pathInfo, path]
    · rw [sees.queryString, sees'.queryString, query]

/-- The URL of an accepted request is parsed from its host and its target. -/
theorem AcceptedWith.parsed {crates : Crates} {target host : String} {req : HttpRequest}
    (accepted : AcceptedWith crates target host req) (origin : startsWith target "/" = true)
    : crates.parseUrl ("http://" ++ (host ++ target)) = some req.url := by
  obtain ⟨rng, request, partial_, rest, found, named, new, rfl⟩ := accepted
  obtain ⟨fields, host', target', looped, named', found', made, -⟩ :=
    PartialHttpReq.new_inv new
  obtain rfl := Option.some.inj (found.symm.trans found')
  have same : some host' = some host := by
    rw [← named', HeadFields.loop_host looped]
    exact named
  obtain rfl := Option.some.inj same
  obtain ⟨rest', path⟩ := List.isPrefixOf_iff_prefix.mp origin
  have relative (scheme : String) (other : scheme.toList.head? ≠ some '/')
      (some_ : scheme.toList ≠ []) : startsWith target scheme = false := by
    rw [startsWith, ← path]
    cases letters : scheme.toList with
    | nil => exact absurd letters some_
    | cons first more =>
        rw [letters] at other
        have apart : first ≠ '/' := fun same => other (same ▸ rfl)
        simp [List.isPrefixOf, apart]
  rw [url, relative "http://" (by decide) (by decide),
    relative "https://" (by decide) (by decide), origin] at made
  simp only [Bool.or_self, Bool.false_eq_true, if_false, if_true] at made
  rw [← String.append_assoc]
  split at made
  · cases made
  · next url parsed =>
      rw [parsed]
      exact congrArg some (Except.ok.inj made)

/-- Two accepted hosts give a target the same path and query if the same text stands behind
the authority with both, and so they do if both are plain.
-/
theorem host_keeps_route {crates : Crates} {pathOf : List Char → String}
    {queryOf : List Char → Option String} (splits : crates.SplitsUrls pathOf queryOf)
    {target host host' : String} {left right : HttpRequest}
    (origin : startsWith target "/" = true) (accepted : AcceptedWith crates target host left)
    (accepted' : AcceptedWith crates target host' right) (server : String × UInt16)
    : (behindAuthority (host ++ target) = behindAuthority (host' ++ target) →
        SameRoute server left right)
      ∧ (PlainHost host → PlainHost host' → SameRoute server left right) := by
  have parsed := accepted.parsed origin
  have parsed' := accepted'.parsed origin
  have same
      (behind : behindAuthority (host ++ target) = behindAuthority (host' ++ target))
      : SameRoute server left right := by
    rw [sameRoute_iff, splits.path parsed, splits.path parsed', splits.query parsed,
      splits.query parsed', behind]
    exact ⟨rfl, rfl⟩
  refine ⟨same, ?_⟩
  intro plain plain'
  apply same
  rw [behindAuthority_plain plain origin, behindAuthority_plain plain' origin]

/-- Crates that know four texts of a URL. A segment of one dot is none of its path. -/
def Crates.onHosts : Crates :=
  { Crates.onHead "0" with
    parseUrl := fun href =>
      if href = "http://a/" ∨ href = "http://b/" then
        some { href, path := "/", query := none }
      else if href = "http://a/./" then
        some { href := "http://a/", path := "/", query := none }
      else if href = "http://a/x?/" then
        some { href, path := "/x", query := some "/" }
      else
        none }

/-- They split them as documented. -/
theorem Crates.onHosts_splitsUrls
    : Crates.onHosts.SplitsUrls (fun tail => if tail = "/x?/".toList then "/x" else "/")
        (fun tail => if tail = "/x?/".toList then some "/" else none) := by
  have known {text : String} {url : Url}
      (parsed : Crates.onHosts.parseUrl ("http://" ++ text) = some url)
      : (text = "a/" ∨ text = "b/" ∨ text = "a/./") ∧ url.path = "/" ∧ url.query = none
        ∨ text = "a/x?/" ∧ url.path = "/x" ∧ url.query = some "/" := by
    have text_eq {other : String} (same : "http://" ++ text = "http://" ++ other)
        : text = other :=
      String.append_right_inj "http://" |>.mp same
    simp only [Crates.onHosts] at parsed
    split at parsed
    · next same =>
        obtain rfl := Option.some.inj parsed
        exact .inl ⟨same.imp text_eq fun same => .inl (text_eq same), rfl, rfl⟩
    · split at parsed
      · next same =>
          obtain rfl := Option.some.inj parsed
          exact .inl ⟨.inr (.inr (text_eq same)), rfl, rfl⟩
      · split at parsed
        · next same =>
            obtain rfl := Option.some.inj parsed
            exact .inr ⟨text_eq same, rfl, rfl⟩
        · cases parsed
  refine ⟨?_, ?_⟩
  · intro text url parsed
    rcases known parsed with ⟨rfl | rfl | rfl, path, -⟩ | ⟨rfl, path, -⟩ <;> exact path
  · intro text url parsed
    rcases known parsed with ⟨rfl | rfl | rfl, -, query⟩ | ⟨rfl, -, query⟩ <;> exact query

/-- A request for the root of a host. -/
def hostRequest (host : String) : ParsedRequest where
  method := some "GET"
  path := some "/"
  headers := [("Host", utf8 host)]

/-- The URL it is accepted with. -/
def hostUrl (host : String) : Option Url :=
  match PartialHttpReq.new .onHosts (ReadCall.of []).rng (hostRequest host) with
  | .ok (.ok req) => some req.url
  | _ => none

theorem hostUrl_some {host : String} {url : Url} (made : hostUrl host = some url)
    (named : hostOf (hostRequest host).headers = some host)
    : ∃ req, AcceptedWith .onHosts "/" host req ∧ req.url = url := by
  unfold hostUrl at made
  split at made
  · next accepted new =>
      exact ⟨_, ⟨_, _, accepted, [], rfl, named, new, rfl⟩, Option.some.inj made⟩
  · cases made

/-- A host of one letter is plain. -/
theorem plainHost_letter {host : String} {c : Char} (letter : host.toList = [c])
    (solid : urlDelimiter c = false) (visible : urlRemoved c = false)
    : PlainHost host := by
  refine ⟨?_, c, ?_, visible⟩
  · intro other member
    rw [letter] at member
    obtain rfl := List.mem_singleton.mp member
    exact solid
  · rw [letter]
    exact List.mem_singleton_self c

/-- Two plain hosts. -/
theorem host_keeps_route_plain
    : ∃ left right,
        AcceptedWith .onHosts "/" "a" left
        ∧ AcceptedWith .onHosts "/" "b" right
        ∧ SameRoute ("h", 80) left right := by
  obtain ⟨left, accepted, -⟩ :=
    hostUrl_some (show hostUrl "a" = some ⟨"http://a/", "/", none⟩ by decide +kernel)
      (by decide +kernel)
  obtain ⟨right, accepted', -⟩ :=
    hostUrl_some (show hostUrl "b" = some ⟨"http://b/", "/", none⟩ by decide +kernel)
      (by decide +kernel)
  refine ⟨left, right, accepted, accepted', ?_⟩
  exact (host_keeps_route Crates.onHosts_splitsUrls (by decide) accepted accepted'
    ("h", 80)).2 (plainHost_letter rfl rfl rfl) (plainHost_letter rfl rfl rfl)

/-- Other texts behind the authority may still be the same route, as dot segments are removed
from a path.
-/
theorem sameRoute_of_dot_segment
    : ∃ left right,
        AcceptedWith .onHosts "/" "a" left
        ∧ AcceptedWith .onHosts "/" "a/." right
        ∧ behindAuthority ("a" ++ "/") ≠ behindAuthority ("a/." ++ "/")
        ∧ SameRoute ("h", 80) left right := by
  obtain ⟨left, accepted, url⟩ :=
    hostUrl_some (show hostUrl "a" = some ⟨"http://a/", "/", none⟩ by decide +kernel)
      (by decide +kernel)
  obtain ⟨right, accepted', url'⟩ :=
    hostUrl_some (show hostUrl "a/." = some ⟨"http://a/", "/", none⟩ by decide +kernel)
      (by decide +kernel)
  refine ⟨left, right, accepted, accepted', by decide +kernel, ?_⟩
  rw [sameRoute_iff, url, url']
  exact ⟨rfl, rfl⟩

/-- A host with a path and a question mark in it turns the target into a query. -/
theorem host_moves_route
    : ∃ left right,
        AcceptedWith .onHosts "/" "a" left
        ∧ AcceptedWith .onHosts "/" "a/x?" right
        ∧ right.url.path = "/x"
        ∧ ¬ SameRoute ("h", 80) left right := by
  obtain ⟨left, accepted, url⟩ :=
    hostUrl_some (show hostUrl "a" = some ⟨"http://a/", "/", none⟩ by decide +kernel)
      (by decide +kernel)
  obtain ⟨right, accepted', url'⟩ :=
    hostUrl_some (show hostUrl "a/x?" = some ⟨"http://a/x?/", "/x", some "/"⟩ by decide +kernel)
      (by decide +kernel)
  refine ⟨left, right, accepted, accepted', by rw [url'], ?_⟩
  intro same
  have path := same.path
  rw [url, url'] at path
  revert path
  decide

end Casket
