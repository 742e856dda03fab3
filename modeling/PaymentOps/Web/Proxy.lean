import Mathlib.Data.List.Infix
import PaymentOps.Lib.UrlPath

/-!
# The proxy of the web application

The proxy checks the role of a user against the segments of a request, and then builds the address
of the upstream request from the same segments.  The parser of addresses takes dot segments out.

* `requiredRole` is the role that a request demands, `proxy` the checks before it is forwarded;
* `upstreamSegments` are the segments of the request that the API receives;
* `sameRole_iff`: both demand the same role exactly when the method is safe, or there are no dot
  segments, or these neither lead to an administrative endpoint nor stand in for the id of one;
* `operator_for_clients` is a request for an administrative endpoint that an operator may send.
-/

namespace PaymentOps.Web

open Text Url

/-! ## Roles -/

/-- The roles of the users of the web application. -/
inductive Role where
  | viewer | operator | admin
  deriving DecidableEq, Repr

/-- `RANK` -/
def Role.rank : Role → ℕ
  | viewer => 0
  | operator => 1
  | admin => 2

/-- `normalizeRole`: what is no other role is a viewer. -/
def normalizeRole (unicode : Unicode) (role : Option String) : Role :=
  let upper := unicode.upper (role.getD "")
  if upper = "ADMIN" then .admin else if upper = "OPERATOR" then .operator else .viewer

/-- `roleSatisfies`. -/
def roleSatisfies (unicode : Unicode) (role : Option String) (required : Role) : Bool :=
  required.rank ≤ (normalizeRole unicode role).rank

/-- The methods that change nothing. -/
def safeMethods : List String := ["GET", "HEAD", "OPTIONS"]

/-- A part of a pattern between two slashes. -/
inductive PathPart where
  | literal (text : String)
  /-- `[^/]+` -/
  | nonempty
  deriving DecidableEq, Repr

/-- The part accepts a segment. -/
def PathPart.accepts : PathPart → String → Bool
  | literal text, component => component = text
  | nonempty, component => component ≠ ""

/-- Each part accepts the segment in its place. -/
def acceptsAll : List PathPart → List String → Bool
  | [], [] => true
  | part :: parts, component :: components => part.accepts component && acceptsAll parts components
  | _, _ => false

/-- `ADMIN_PATTERNS`, each with the parts after its first slash. -/
def adminPatterns : List (List PathPart) := [
  [.literal "api", .literal "v1", .literal "clients"],
  [.literal "api", .literal "v1", .literal "integration-profiles"],
  [.literal "api", .literal "v1", .literal "integration-profiles", .nonempty, .literal "publish"],
  [.literal "api", .literal "v1", .literal "matching", .literal "policies"],
  [.literal "api", .literal "v1", .literal "matching", .literal "policies", .nonempty,
    .literal "publish"]]

/-- `re.test(path)` -/
def testPattern (parts : List PathPart) (path : String) : Bool :=
  acceptsAll (.literal "" :: parts) (split '/' path)

/-- `ADMIN_PATTERNS.some((re) => re.test(path))` -/
def administrative (segments : List String) : Bool :=
  adminPatterns.any fun parts => testPattern parts ("/" ++ join "/" segments)

/-- `requiredRole`, by the raw segments. -/
def requiredRole (unicode : Unicode) (method : String) (segments : List String) : Role :=
  if unicode.upper method ∈ safeMethods then .viewer
  else if administrative segments then .admin
  else .operator

/-! ## Forwarding -/

/-- `internalApiUrl`, of the value of `PAYMENTOPS_INTERNAL_API_URL`. -/
def internalApiUrl (configured : Option String) : String :=
  rstripChars ['/'] (configured.getD "http://localhost:8000")

/-- The address of the API: an origin and a path without dot segments. -/
structure ApiBase where
  configured : Option String := none
  origin : String
  path : List String := []
  url_eq : (internalApiUrl configured).toList =
    origin.toList ++ pathText (path.map encodeURIComponent)
  plain : ∀ s ∈ path, exactDots s = .none

/-- `request.nextUrl.search` -/
def searchText (query : Option String) : String :=
  match query with
  | none => ""
  | some text => "?" ++ text

/-- The URL that a request is sent on to: each segment is encoded. -/
def target (base : ApiBase) (segments : List String) (query : Option String) : String :=
  internalApiUrl base.configured ++ "/" ++ join "/" (segments.map encodeURIComponent) ++
    searchText query

/-- The session of a user. -/
structure SessionUser where
  email : String
  role : String
  organizationId : String
  deriving DecidableEq, Repr

/-- A request, with the user that its session token belongs to. -/
structure ProxyRequest where
  method : String
  path : Option (List String)
  query : Option String := none
  user : Option SessionUser
  csrfCookie : Option String := none
  csrfHeader : Option String := none

/-- The answer of the proxy itself. -/
structure Rejection where
  status : ℕ
  detail : String
  deriving DecidableEq, Repr

/-- The request to the API. -/
structure UpstreamRequest where
  method : String
  target : String
  actorIdentity : String
  deriving DecidableEq, Repr

/-- The answer 403. -/
def forbidden (detail : String) : Rejection := ⟨403, detail⟩

/-- The methods that need the CSRF token. -/
def mutatingMethods : List String := ["POST", "PUT", "PATCH", "DELETE"]

/-- `expected` is the value of `PAYMENTOPS_OPERATOR_ORG_ID`. -/
def isAuthorizedTenant (expected : Option String) (user : SessionUser) : Bool :=
  !truthy expected || expected = some user.organizationId

/-- The segments of the route, none for its root. -/
def ProxyRequest.segments (request : ProxyRequest) : List String := request.path.getD []

/-- The handler: the checks in their order, then the request to the API. -/
def proxy (unicode : Unicode) (base : ApiBase) (operatorOrg : Option String)
    (request : ProxyRequest) : Except Rejection UpstreamRequest :=
  match request.user with
  | none => .error ⟨401, "Authentication required."⟩
  | some user =>
    if !isAuthorizedTenant operatorOrg user then
      .error (forbidden "Your account is not authorized for this workspace.")
    else if !roleSatisfies unicode user.role
        (requiredRole unicode request.method request.segments) then
      .error (forbidden ("Your role (" ++ user.role ++ ") does not permit this action."))
    else if request.method ∈ mutatingMethods ∧ ¬ (truthy request.csrfCookie ∧
        truthy request.csrfHeader ∧ request.csrfCookie = request.csrfHeader) then
      .error (forbidden "Invalid or missing CSRF token.")
    else .ok {
      method := request.method
      target := target base request.segments request.query
      actorIdentity := user.email }

/-- The segments that the API receives, after those of its base. -/
def upstreamSegments (base : ApiBase) (address : String) : List String :=
  (relativeTo (base.path.map encodeURIComponent)
    (requestPath (address.toList.drop base.origin.toList.length))).map decodeSegment

/-! ## The upstream path -/

/-- The path of no segments has an empty one. -/
def orRoot (segments : List String) : List String := if segments = [] then [""] else segments

theorem not_mem_encode {s : String} {c : Char} (hc : c ∈ delimiters) :
    c ∉ (encodeURIComponent s).toList := by
  intro h
  rw [encodeURIComponent, String.toList_ofList] at h
  have hall : delimiters.all fun c => !(unescaped c || c = '%') := by decide
  have hnone := List.all_eq_true.mp hall c hc
  rw [Bool.not_eq_true', Bool.or_eq_false_iff, decide_eq_false_iff_not] at hnone
  rcases mem_encodeChars h with hkept | hpercent
  · exact absurd hkept (by simp [hnone.1])
  · exact hnone.2 hpercent

/-- The address, from its origin on. -/
theorem toList_target (base : ApiBase) (segments : List String) (query : Option String) :
    (target base segments query).toList = base.origin.toList ++
      (pathText ((base.path ++ orRoot segments).map encodeURIComponent) ++
        (searchText query).toList) := by
  have hsuffix : '/' :: (join "/" (segments.map encodeURIComponent)).toList =
      pathText ((orRoot segments).map encodeURIComponent) := by
    unfold orRoot
    split_ifs with h
    · rw [h]
      rfl
    · exact pathText_join (by simpa using h)
  have hpath : pathText ((base.path ++ orRoot segments).map encodeURIComponent) =
      pathText (base.path.map encodeURIComponent) ++
        '/' :: (join "/" (segments.map encodeURIComponent)).toList := by
    rw [hsuffix, List.map_append]
    exact List.flatMap_append
  rw [hpath, target, String.toList_append, String.toList_append, String.toList_append, base.url_eq]
  simp

/-- The API receives the segments without their dot segments. -/
theorem upstream_eq (base : ApiBase) (segments : List String) (query : Option String) :
    upstreamSegments base (target base segments query) =
      relativeTo base.path (resolve exactDots (base.path ++ orRoot segments)) := by
  have hdelimiters : ∀ s ∈ (base.path ++ orRoot segments).map encodeURIComponent,
      ∀ c ∈ delimiters, c ∉ s.toList := by
    intro s hs c hc
    obtain ⟨s', -, rfl⟩ := List.mem_map.mp hs
    exact not_mem_encode hc
  have hquery : (searchText query).toList = [] ∨ (searchText query).toList.head? = some '?' := by
    cases query with
    | none => exact .inl rfl
    | some text =>
      right
      simp [searchText]
  have hne : (base.path ++ orRoot segments).map encodeURIComponent ≠ [] := by
    unfold orRoot
    split_ifs with h <;> simp [h]
  have hid : decodeSegment ∘ encodeURIComponent = id :=
    Function.LeftInverse.comp_eq_id decode_encode
  rw [upstreamSegments, toList_target, List.drop_left, requestPath_pathText hne hdelimiters hquery,
    resolve_encode, relativeTo_map encodeURIComponent_injective, List.map_map, hid, List.map_id]

/-- Without dot segments the API receives the segments as they are. -/
theorem upstream_of_undotted (base : ApiBase) {segments : List String}
    (h : ∀ s ∈ segments, exactDots s = .none) (query : Option String) :
    upstreamSegments base (target base segments query) = orRoot segments := by
  have hnone : ∀ s ∈ base.path ++ orRoot segments, exactDots s = .none := by
    intro s hs
    rcases List.mem_append.mp hs with hs | hs
    · exact base.plain s hs
    · unfold orRoot at hs
      split_ifs at hs
      · obtain rfl := List.mem_singleton.mp hs
        decide
      · exact h s hs
  rw [upstream_eq, resolve_of_none hnone, relativeTo_append]

variable {unicode : Unicode}

theorem requiredRole_orRoot (method : String) (segments : List String) :
    requiredRole unicode method (orRoot segments) = requiredRole unicode method segments := by
  unfold orRoot
  split_ifs with h
  · rw [h]
    rfl
  · rfl

/-- What is forwarded without dot segments, the role of the user permits. -/
theorem permitted_of_undotted {base : ApiBase} {operatorOrg : Option String}
    {request : ProxyRequest} {upstream : UpstreamRequest}
    (h : proxy unicode base operatorOrg request = .ok upstream)
    (hdots : ∀ s ∈ request.segments, exactDots s = .none) :
    ∃ user, request.user = some user ∧ roleSatisfies unicode user.role
      (requiredRole unicode upstream.method (upstreamSegments base upstream.target)) := by
  unfold proxy at h
  split at h
  · cases h
  · rename_i user huser
    split_ifs at h with htenant hrole hcsrf
    cases h
    refine ⟨user, huser, ?_⟩
    dsimp only
    rw [upstream_of_undotted base hdots, requiredRole_orRoot]
    simpa using hrole

/-! ## Dot segments -/

/-- The segments, without their dot segments. -/
def resolvedSegments (base : ApiBase) (segments : List String) : List String :=
  relativeTo base.path (resolve exactDots (base.path ++ segments))

/-- The collections with an endpoint that publishes one of their members. -/
def publishedCollections : List (List String) :=
  [["api", "v1", "integration-profiles"], ["api", "v1", "matching", "policies"]]

/-- The segments name the endpoint that publishes a member, with a dot segment for its id. -/
def PublishesDots (segments : List String) : Prop :=
  ∃ collection dot, segments = collection ++ [dot, "publish"] ∧ exactDots dot ≠ .none ∧
    split '/' (join "/" collection) ∈ publishedCollections

/-- What stands between the slashes of a path. -/
def components (segments : List String) : List String := segments.flatMap (split '/')

theorem components_append (l l' : List String) :
    components (l ++ l') = components l ++ components l' := List.flatMap_append

theorem components_of_published {collection : List String}
    (h : split '/' (join "/" collection) ∈ publishedCollections) :
    collection ≠ [] ∧ components collection ∈ publishedCollections := by
  have hne : collection ≠ [] := by
    rintro rfl
    exact absurd h (by decide)
  have hjoin : split '/' (join "/" collection) = components collection :=
    split_join_flatMap '/' hne
  rw [hjoin] at h
  exact ⟨hne, h⟩

theorem administrative_eq {segments : List String} (h : segments ≠ []) :
    administrative segments = adminPatterns.any fun parts =>
      acceptsAll parts (components segments) := by
  have hsplit : split '/' ("/" ++ join "/" segments) = "" :: components segments := by
    have hslash := split_append '/' "" (join "/" segments)
    have hjoin : split '/' (join "/" segments) = components segments := split_join_flatMap '/' h
    rw [hjoin] at hslash
    exact hslash
  unfold administrative testPattern
  rw [hsplit]
  rfl

/-- A pattern without a wildcard. -/
theorem acceptsAll_literals {l parts : List String} {rest : List PathPart}
    (h : acceptsAll (l.map .literal ++ rest) parts) :
    ∃ parts', parts = l ++ parts' ∧ acceptsAll rest parts' := by
  induction l generalizing parts with
  | nil => exact ⟨parts, rfl, h⟩
  | cons s l ih =>
    cases parts with
    | nil => cases h
    | cons part parts =>
      rw [List.map_cons, List.cons_append, acceptsAll, Bool.and_eq_true] at h
      obtain ⟨parts', rfl, hrest⟩ := ih h.2
      exact ⟨parts', congrArg (· :: _) (by simpa [PathPart.accepts] using h.1), hrest⟩

/-- The components of an administrative path. -/
theorem parts_of_accepted {parts : List String}
    (h : adminPatterns.any fun pattern => acceptsAll pattern parts) :
    parts ∈ [["api", "v1", "clients"], ["api", "v1", "integration-profiles"],
      ["api", "v1", "matching", "policies"]] ∨
      ∃ collection ∈ publishedCollections, ∃ id, parts = collection ++ [id, "publish"] := by
  have hliteral : ∀ l : List String, acceptsAll (l.map .literal) parts → parts = l := by
    intro l hl
    rw [← List.append_nil (l.map _)] at hl
    obtain ⟨parts', rfl, hrest⟩ := acceptsAll_literals hl
    cases parts' with
    | nil => exact List.append_nil l
    | cons => cases hrest
  have hpublish : ∀ l : List String,
      acceptsAll (l.map .literal ++ [.nonempty, .literal "publish"]) parts →
        ∃ id, parts = l ++ [id, "publish"] := by
    intro l hl
    obtain ⟨parts', rfl, hrest⟩ := acceptsAll_literals hl
    rcases parts' with _ | ⟨id, _ | ⟨word, _ | _⟩⟩ <;>
      simp [acceptsAll, PathPart.accepts] at hrest
    rw [hrest.2]
    exact ⟨id, rfl⟩
  obtain ⟨pattern, hpattern, haccepts⟩ := List.any_eq_true.mp h
  simp only [adminPatterns, List.mem_cons, List.not_mem_nil, or_false] at hpattern
  rcases hpattern with rfl | rfl | rfl | rfl | rfl
  · left
    rw [hliteral ["api", "v1", "clients"] haccepts]
    decide
  · left
    rw [hliteral ["api", "v1", "integration-profiles"] haccepts]
    decide
  · exact .inr ⟨_, List.mem_cons_self, hpublish ["api", "v1", "integration-profiles"] haccepts⟩
  · left
    rw [hliteral ["api", "v1", "matching", "policies"] haccepts]
    decide
  · exact .inr ⟨_, List.mem_cons_of_mem _ List.mem_cons_self,
      hpublish ["api", "v1", "matching", "policies"] haccepts⟩

theorem eq_of_exactDots {d : String} (h : exactDots d ≠ .none) : d = "." ∨ d = ".." := by
  unfold exactDots at h
  split_ifs at h with hsingle hdouble
  · exact .inl hsingle
  · exact .inr hdouble
  · exact absurd rfl h

theorem components_dot {d : String} (h : exactDots d ≠ .none) (rest : List String) :
    components (d :: rest) = d :: components rest := by
  have hsplit : split '/' d = [d] := by
    rcases eq_of_exactDots h with rfl | rfl
    · decide
    · decide
  rw [components, List.flatMap_cons, hsplit]
  rfl

theorem components_eq_nil {l : List String} (h : components l = []) : l = [] := by
  cases l with
  | nil => rfl
  | cons s l =>
    rw [components, List.flatMap_cons, List.append_eq_nil_iff] at h
    exact absurd h.1 (split_ne_nil '/' s)

theorem components_eq_singleton {l : List String} {word : String} (h : components l = [word]) :
    l = [word] := by
  cases l with
  | nil => cases h
  | cons s l =>
    rw [components, List.flatMap_cons, ← components] at h
    obtain ⟨part, parts, hsplit⟩ := List.exists_cons_of_ne_nil (split_ne_nil '/' s)
    rw [hsplit, List.cons_append, List.cons.injEq, List.append_eq_nil_iff] at h
    obtain ⟨rfl, rfl, hrest⟩ := h
    have hjoin := join_split '/' s
    rw [hsplit] at hjoin
    rw [components_eq_nil hrest, ← hjoin]
    rfl

/-- Where a dot segment stands among the components of an endpoint. -/
theorem position_of_dot {before after collection : List String} {d id word : String}
    (h : before ++ d :: after = collection ++ [id, word]) (hd : d ∉ collection) (hne : d ≠ word) :
    before = collection ∧ after = [word] := by
  rcases List.append_eq_append_iff.mp h with ⟨rest, hcollection, hrest⟩ | ⟨rest, hbefore, hrest⟩
  · cases rest with
    | nil => exact ⟨by simpa using hcollection.symm, (List.cons.inj hrest).2⟩
    | cons d' rest =>
      obtain rfl := (List.cons.inj hrest).1
      exact absurd (hcollection ▸ List.mem_append_right _ List.mem_cons_self) hd
  · rcases rest with _ | ⟨x, _ | ⟨y, rest⟩⟩
    · exact ⟨by simpa using hbefore, (List.cons.inj hrest).2.symm⟩
    · exact absurd (List.cons.inj (List.cons.inj hrest).2).1.symm hne
    · simp at hrest

theorem exactDots_of_collection :
    ∀ collection ∈ publishedCollections, ∀ s ∈ collection, exactDots s = .none := by decide

/-- A path with dot segments is taken for an administrative one when one of them stands for an
id. -/
theorem administrative_iff_publishesDots {segments : List String}
    (hdots : ∃ d ∈ segments, exactDots d ≠ .none) :
    administrative segments ↔ PublishesDots segments := by
  obtain ⟨d, hmem, hd⟩ := hdots
  rw [administrative_eq (List.ne_nil_of_mem hmem)]
  constructor
  · intro h
    obtain ⟨before, after, rfl⟩ := List.append_of_mem hmem
    rw [components_append, components_dot hd] at h
    rcases parts_of_accepted h with h | ⟨collection, hcollection, id, hparts⟩
    · have hplain : ∀ parts ∈ [["api", "v1", "clients"], ["api", "v1", "integration-profiles"],
          ["api", "v1", "matching", "policies"]], ∀ s ∈ parts, exactDots s = .none := by decide
      exact absurd (hplain _ h d (List.mem_append_right _ List.mem_cons_self)) hd
    · have hword : d ≠ "publish" := by
        rintro rfl
        exact hd (by decide)
      obtain ⟨hbefore, hafter⟩ := position_of_dot hparts
        (fun hin => hd (exactDots_of_collection collection hcollection d hin)) hword
      have hne : before ≠ [] := by
        rintro rfl
        rw [← hbefore] at hcollection
        exact absurd hcollection (by decide)
      refine ⟨before, d, by rw [components_eq_singleton hafter], hd, ?_⟩
      have hjoin : split '/' (join "/" before) = components before := split_join_flatMap '/' hne
      rw [hjoin, hbefore]
      exact hcollection
  · rintro ⟨collection, dot, rfl, hdot, hcollection⟩
    obtain ⟨-, hcollection⟩ := components_of_published hcollection
    have hall : ∀ collection ∈ publishedCollections, ∀ dot ∈ [".", ".."],
        (adminPatterns.any fun parts => acceptsAll parts (collection ++ [dot, "publish"])) := by
      decide
    have hword : components ["publish"] = ["publish"] := by decide
    rw [components_append, components_dot hdot, hword]
    exact hall _ hcollection dot (List.mem_pair.mpr (eq_of_exactDots hdot))

/-- Then the endpoint that they lead to is no administrative one. -/
theorem not_administrative_of_publishesDots (base : ApiBase) {segments : List String}
    (h : PublishesDots segments) : ¬ administrative (resolvedSegments base segments) := by
  obtain ⟨collection, dot, rfl, hdot, hcollection⟩ := h
  obtain ⟨hne, hcollection⟩ := components_of_published hcollection
  have hnone : ∀ s ∈ base.path ++ collection, exactDots s = .none := by
    intro s hs
    rcases List.mem_append.mp hs with hs | hs
    · exact base.plain s hs
    · by_contra hdots
      obtain ⟨before, after, rfl⟩ := List.append_of_mem hs
      rw [components_append, components_dot hdots] at hcollection
      exact hdots (exactDots_of_collection _ hcollection s
        (List.mem_append_right _ List.mem_cons_self))
  -- `.` leaves the collection as it is, `..` takes its last segment away
  have hresolved : ∃ kept, resolvedSegments base (collection ++ [dot, "publish"]) =
      kept ++ ["publish"] ∧ components kept <+: components collection := by
    rw [resolvedSegments, ← List.append_assoc, resolve, resolveFrom_append hnone, List.nil_append]
    rcases eq_of_exactDots hdot with rfl | rfl
    · refine ⟨collection, ?_, List.prefix_refl _⟩
      rw [show resolveFrom exactDots (base.path ++ collection) [".", "publish"] =
        base.path ++ (collection ++ ["publish"]) by simp [resolveFrom, exactDots]]
      exact relativeTo_append _ _
    · refine ⟨collection.dropLast, ?_, ?_⟩
      · rw [show resolveFrom exactDots (base.path ++ collection) ["..", "publish"] =
          base.path ++ (collection.dropLast ++ ["publish"]) by
            simp [resolveFrom, exactDots, List.dropLast_append_of_ne_nil hne]]
        exact relativeTo_append _ _
      · obtain ⟨rest, hrest⟩ := List.dropLast_prefix collection
        refine ⟨components rest, ?_⟩
        rw [← components_append, hrest]
  obtain ⟨kept, hkept, hinit⟩ := hresolved
  have hall : ∀ collection ∈ publishedCollections, ∀ kept ∈ collection.inits,
      ¬ adminPatterns.any fun parts => acceptsAll parts (kept ++ ["publish"]) := by decide
  have hword : components ["publish"] = ["publish"] := by decide
  rw [hkept, administrative_eq (by simp), components_append, hword]
  exact hall _ hcollection _ ((List.mem_inits _ _).mpr hinit)

/-- The role that the proxy checks is the one that the request to the API demands exactly when the
method is safe, or there are no dot segments, or they neither stand for the id of what is published
nor lead to an administrative endpoint. -/
theorem sameRole_iff (unicode : Unicode) (base : ApiBase) (method : String)
    (segments : List String) (query : Option String) :
    requiredRole unicode method segments =
        requiredRole unicode method (upstreamSegments base (target base segments query)) ↔
      unicode.upper method ∈ safeMethods ∨ (∀ s ∈ segments, exactDots s = .none) ∨
        (¬ PublishesDots segments ∧ ¬ administrative (resolvedSegments base segments)) := by
  by_cases hsafe : unicode.upper method ∈ safeMethods
  · refine iff_of_true ?_ (.inl hsafe)
    unfold requiredRole
    rw [if_pos hsafe, if_pos hsafe]
  by_cases hnone : ∀ s ∈ segments, exactDots s = .none
  · refine iff_of_true ?_ (.inr (.inl hnone))
    rw [upstream_of_undotted base hnone, requiredRole_orRoot]
  have hdots : ∃ d ∈ segments, exactDots d ≠ .none := by
    simpa only [not_forall, exists_prop] using hnone
  have hne : segments ≠ [] := by
    obtain ⟨d, hd, -⟩ := hdots
    exact List.ne_nil_of_mem hd
  have hupstream : upstreamSegments base (target base segments query) =
      resolvedSegments base segments := by
    rw [upstream_eq, orRoot, if_neg hne, resolvedSegments]
  have hroles : requiredRole unicode method segments =
      requiredRole unicode method (resolvedSegments base segments) ↔
        (administrative segments ↔ administrative (resolvedSegments base segments)) := by
    unfold requiredRole
    rw [if_neg hsafe, if_neg hsafe]
    split_ifs with h h' h' <;> simp [h, h']
  rw [hupstream, hroles, administrative_iff_publishesDots hdots]
  constructor
  · intro h
    by_cases hpublishes : PublishesDots segments
    · exact absurd (h.mp hpublishes) (not_administrative_of_publishesDots base hpublishes)
    · exact .inr (.inr ⟨hpublishes, fun h' => hpublishes (h.mpr h')⟩)
  · rintro (h | h | ⟨hpublishes, hadmin⟩)
    · exact absurd h hsafe
    · exact absurd h hnone
    · exact iff_of_false hpublishes hadmin

/-- The address that is used when none is configured. -/
def localBase : ApiBase where
  origin := "http://localhost:8000"
  url_eq := by decide
  plain := by decide

/-- An operator may send what creates an API client. -/
theorem operator_for_clients :
    ¬ requiredRole .ascii "POST" ["api", "v1", "x", "..", "clients"] = requiredRole .ascii "POST"
      (upstreamSegments localBase (target localBase ["api", "v1", "x", "..", "clients"] none)) := by
  have hoperator : requiredRole .ascii "POST" ["api", "v1", "x", "..", "clients"] = .operator := by
    decide
  have hadmin : requiredRole .ascii "POST" (relativeTo localBase.path (resolve exactDots
      (localBase.path ++ orRoot ["api", "v1", "x", "..", "clients"]))) = .admin := by
    decide
  rw [upstream_eq, hoperator, hadmin]
  decide

end PaymentOps.Web
