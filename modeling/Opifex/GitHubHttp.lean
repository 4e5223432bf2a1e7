import Opifex.EtagCache

/-!
# The HTTP pipeline to GitHub

One request: the credential is checked, the ETag of what is stored for the URL goes
with it, and an attempt that a later one might survive is made again, up to the
retries that are configured. A 304 answers with the body and the `Link` header that
are stored. Every other failure is final, and an error: its class says what the
caller may do about it.

The token is taken out of every message that comes from outside (`withoutToken`). What
the network answers to the n-th request sent, and when, is
a parameter.
-/

namespace Opifex

/-! ## The budget -/

/-- The budgets that GitHub counts apart. A search may be out of requests while the rest
of the API still answers, so there is a snapshot for each. -/
inductive RateLimitResource where
  | core
  | search
  | graphql
  | integrationManifest
deriving DecidableEq, Repr

/-- The `x-ratelimit-*` headers of a response, as texts. Each may be absent, and what is
there need not be a number. -/
structure RateLimitHeaders where
  limit : Option String
  remaining : Option String
  reset : Option String
  resource : Option String

/-- What one response said of one budget: how much there is in a window, how much of it
is left, and when the window ends. -/
structure RateLimitSnapshot where
  resource : RateLimitResource
  limit : ℤ
  remaining : ℤ
  /-- In milliseconds, as all times here. -/
  resetAt : ℤ
  observedAt : ℤ
deriving DecidableEq

/-- The state of the rate-limit service: the newest snapshot of each budget, and how
many conditional requests came back as 304 and how many did not. -/
structure RateLimit where
  snapshots : KeyMap RateLimitResource RateLimitSnapshot
  conditionalHits : ℕ
  conditionalMisses : ℕ

/-- `Number.parseInt(text, 10)`: blanks are skipped, a sign may follow, and what comes
after the digits is ignored. None is `NaN`, the answer where there is no digit. -/
def parseInt (text : String) : Option ℤ :=
  let cs := text.toList.dropWhile Text.isSpace
  let (sign, cs) : ℤ × List Char :=
    match cs with
    | '-' :: cs => (-1, cs)
    | '+' :: cs => (1, cs)
    | cs => (1, cs)
  let digits := cs.takeWhile Char.isDigit
  if digits = [] then none
  else
    some (sign * Text.toDouble
      (digits.foldl (fun n c => 10 * n + (c.toNat - '0'.toNat)) 0))

/-- The budget that a response names. A header that is absent, or names a budget the
factory does not touch, counts as `core`. -/
def normalizeResource : Option String → RateLimitResource
  | some "search" => .search
  | some "graphql" => .graphql
  | some "integration_manifest" => .integrationManifest
  | _ => .core

namespace RateLimit

/-- What a response says about the budget, kept over what an earlier one said. All three
numbers must be there: a response without the headers is no news, and the last snapshot
stands. -/
def record (limits : RateLimit) (now : ℤ) (headers : RateLimitHeaders) : RateLimit :=
  match headers.limit.bind parseInt, headers.remaining.bind parseInt,
    headers.reset.bind parseInt with
  | some limit, some remaining, some reset =>
    let resource := normalizeResource headers.resource
    { limits with
      snapshots := limits.snapshots.set resource
        ⟨resource, limit, remaining, reset * 1000, now⟩ }
  | _, _, _ => limits

/-- A conditional request that came back as 304, and so cost nothing. -/
def recordConditionalHit (limits : RateLimit) : RateLimit :=
  { limits with conditionalHits := limits.conditionalHits + 1 }

/-- A conditional request that GitHub answered in full, because what is stored no longer
holds. -/
def recordConditionalMiss (limits : RateLimit) : RateLimit :=
  { limits with conditionalMisses := limits.conditionalMisses + 1 }

/-- The last thing GitHub said of a budget. Past the reset of its window the budget is
full again, which no response has to say first. -/
def snapshot (limits : RateLimit) (now : ℤ) (resource : RateLimitResource) :
    Option RateLimitSnapshot :=
  (limits.snapshots.get resource).map fun snapshot =>
    if snapshot.resetAt ≤ now then { snapshot with remaining := snapshot.limit }
    else snapshot

/-- Whether more of a budget is left than the reserve. An unknown budget can be spent:
the first request is what makes it known. -/
def canSpend (limits : RateLimit) (now reserve : ℤ) (resource : RateLimitResource) : Bool :=
  match limits.snapshot now resource with
  | none => true
  | some snapshot => snapshot.remaining > reserve

end RateLimit

/-! ## Errors -/

/-- The classes of `github.errors.ts`. They differ in what a caller may do: wait until
the budget returns, try again, or give up. -/
inductive GitHubErrorKind where
  /-- A budget is exhausted, and returns at `resetAt`. -/
  | rateLimit (resetAt : ℤ) (secondary : Bool)
  | transient
  | auth
  | notFound
  | request (body : JsonValue)

/-- What a call throws: the class, the message with the credential taken out, and the
request that failed. -/
structure GitHubError where
  kind : GitHubErrorKind
  message : String
  /-- Null for a failure of the transport. -/
  status : Option ℕ
  method : HttpMethod
  path : String

/-- A failure that a second attempt might not meet. It is the only class the client
retries. -/
def GitHubError.isTransient (error : GitHubError) : Bool :=
  match error.kind with
  | .transient => true
  | _ => false

/-- `text.split(old).join(new)`, a character at a time. The first argument that counts,
`skip`, is how many more characters are part of an occurrence that was replaced already.
-/
def replaceAll (old new : List Char) : (skip : ℕ) → List Char → List Char
  | _, [] => []
  | skip + 1, _ :: cs => replaceAll old new skip cs
  | 0, c :: cs =>
    if old <+: c :: cs then new ++ replaceAll old new (old.length - 1) cs
    else c :: replaceAll old new 0 cs

/-- A message with the credential that was sent taken out of it, wherever it occurs.
What is shorter than a credential is a placeholder, and stays. -/
def withoutToken (message : String) : (token : Option String) → String
  | none => message
  | some token =>
    if Text.length token < 8 then message
    else String.ofList (replaceAll token.toList "[redacted]".toList 0 message.toList)

/-! ## One attempt -/

/-- A request as `fetch` is given it: the headers that the service sets itself, and the
body, if there is one. -/
structure HttpRequest where
  method : HttpMethod
  url : String
  accept : String
  authorization : String
  userAgent : String
  ifNoneMatch : Option String
  body : Option JsonValue

/-- What the service reads of a response. The body is given as the JSON value that
`parseBody` makes of it. -/
structure HttpResponse where
  status : ℕ
  statusText : String
  etag : Option String
  link : Option String
  retryAfter : Option String
  rateLimit : RateLimitHeaders
  /-- What `parseBody` makes of the body. -/
  body : JsonValue

/-- `response.ok`: the status is one of the two hundreds. -/
def HttpResponse.ok (response : HttpResponse) : Bool :=
  200 ≤ response.status && response.status ≤ 299

/-- What comes of the n-th request sent, and when it is answered. An answer is a
response, or the message of a transport that failed. -/
structure Network where
  answer : ℕ → HttpRequest → Except String HttpResponse
  now : ℕ → ℤ

/-- What a caller is answered: the data, and where they came from. The `Link` header is
the one that belongs to the data, also where these came from the store. -/
structure GitHubResponse where
  data : JsonValue
  status : ℕ
  /-- GitHub answered 304, and the data came from the store. -/
  fromCache : Bool
  link : Option String
  etag : Option String

/-- What a caller asks of a request, apart from its path. What is left out has the
default of the source. -/
structure GitHubRequestOptions where
  method : HttpMethod := .get
  /-- A query parameter that is undefined is none. -/
  query : List (String × String) := []
  body : Option JsonValue := none
  conditional : Option Bool := none
  accept : Option String := none

/-- Whether the request goes with the ETag of what is stored. A `GET` does unless the
caller says otherwise, and nothing else does unless the caller asks for it. -/
def GitHubRequestOptions.isConditional (options : GitHubRequestOptions) : Bool :=
  options.conditional.getD (options.method = .get)

/-- What the service was made with, and the policy of a request: how often it may be
retried. -/
structure GitHubHttpSettings where
  baseUrl : String
  userAgent : String
  token : Option String
  maxRetries : ℕ

/-- The state of the client: its store of responses, what it knows of the budgets, and
the number of requests it has sent, which is what the network's answers go by. -/
structure GitHubClient where
  etags : EtagCache
  rateLimit : RateLimit
  sent : ℕ

/-- The text GitHub gave for an error: the body itself if it is a text, else its
`message`. -/
def extractMessage : JsonValue → Option String
  | .str text => some text
  | body => body.text? "message"

/-- The two rate limits, apart from everything else a 403 can mean. A `Retry-After`
header is the secondary limit; an exhausted budget that says when it returns is the
primary one. -/
def asRateLimitError (now : ℤ) (response : HttpResponse) (method : HttpMethod)
    (path message : String) : Option GitHubError :=
  match response.retryAfter.bind parseInt with
  | some retryAfter =>
    some
      { kind := .rateLimit (now + retryAfter * 1000) true
        message := "Secondary rate limit on " ++ method.name ++ " " ++ path ++ ": " ++ message
        status := some response.status
        method := method
        path := path }
  | none =>
    match response.rateLimit.remaining.bind parseInt, response.rateLimit.reset.bind parseInt with
    | some 0, some reset =>
      some
        { kind := .rateLimit (reset * 1000) false
          message := "Rate limit exhausted on " ++ method.name ++ " " ++ path ++ ": " ++ message
          status := some response.status
          method := method
          path := path }
    -- exhausted but undateable is no rate-limit error
    | _, _ => none

/-- The error of a response that is neither a success nor a 304. The status decides the
class, and a 403 or 429 is a refused credential only if it is no rate limit. -/
def toError (now : ℤ) (response : HttpResponse) (method : HttpMethod) (path : String)
    (token : Option String) : GitHubError :=
  let message := withoutToken ((extractMessage response.body).getD response.statusText) token
  let failed (kind : GitHubErrorKind) (text : String) : GitHubError :=
    { kind := kind
      message := text
      status := some response.status
      method := method
      path := path }
  if response.status = 401 then
    failed .auth ("GitHub rejected the credential: " ++ message)
  else if response.status = 403 ∨ response.status = 429 then
    (asRateLimitError now response method path message).getD
      (failed .auth ("GitHub refused the request: " ++ message))
  else if response.status = 404 then
    failed .notFound (message ++ " (" ++ method.name ++ " " ++ path ++ ")")
  else if 500 ≤ response.status then
    failed .transient
      ("GitHub server error " ++ toString response.status ++ ": " ++ message)
  else
    failed (.request response.body)
      ("GitHub rejected " ++ method.name ++ " " ++ path ++ ": " ++ message)

section Request

variable (network : Network) (settings : GitHubHttpSettings)

/-- The request of an attempt. The ETag of what is stored goes with it as
`If-None-Match`, if the request is conditional and something is stored. -/
def httpRequest (url token : String) (options : GitHubRequestOptions)
    (cached : Option CachedResponse) : HttpRequest where
  method := options.method
  url := url
  accept := options.accept.getD "application/vnd.github+json"
  authorization := "Bearer " ++ token
  userAgent := settings.userAgent
  ifNoneMatch := cached.map (·.etag)
  body := options.body

/-- `attempt`: one request sent. Whatever is answered counts as sent and is read for the
budget; only a success is stored, and only a 304 is answered from the store. -/
def attempt (url path token : String) (options : GitHubRequestOptions)
    (cached : Option CachedResponse) (client : GitHubClient) :
    Except GitHubError GitHubResponse × GitHubClient :=
  let now := network.now client.sent
  match network.answer client.sent (httpRequest settings url token options cached) with
  | .error message =>
    -- no headers, so no news of the budget
    (.error
      { kind := .transient
        message := withoutToken message (some token)
        status := none
        method := options.method
        path := path },
      { client with sent := client.sent + 1 })
  | .ok response =>
    let client : GitHubClient :=
      { client with
        sent := client.sent + 1
        rateLimit := client.rateLimit.record now response.rateLimit }
    match response.status == 304, cached with
    | true, some cached =>
      (.ok ⟨cached.body, 304, true, cached.link, some cached.etag⟩,
        { client with rateLimit := client.rateLimit.recordConditionalHit })
    | _, _ =>
      if response.ok then
        let limits :=
          if cached.isSome then client.rateLimit.recordConditionalMiss else client.rateLimit
        let etags :=
          match response.etag.filter Text.truthy, options.isConditional with
          | some etag, true =>
            client.etags.set options.method url ⟨etag, response.body, response.link⟩
          | _, _ => client.etags
        (.ok ⟨response.body, response.status, false, response.link, response.etag⟩,
          { client with rateLimit := limits, etags := etags })
      else (.error (toError now response options.method path (some token)), client)

/-- The retry loop. So many attempts are left, and `last` is how the one before failed.
A failure that is not transient ends it at once. -/
def retrying (attempt : GitHubClient → Except GitHubError GitHubResponse × GitHubClient)
    (none : GitHubError) : (left : ℕ) → (last : Option GitHubError) → GitHubClient →
    Except GitHubError GitHubResponse × GitHubClient
  | 0, last, client => (.error (last.getD none), client)
  | left + 1, _, client =>
    match attempt client with
    | (.ok response, client) => (.ok response, client)
    | (.error error, client) =>
      if error.isTransient then retrying attempt none left (some error) client
      else (.error error, client)

/-- What a call throws: the error of `new URL`, before anything is sent, or one of the
client's own. -/
inductive HttpFailure where
  /-- `new URL` threw. -/
  | invalidUrl
  | github (error : GitHubError)

/-- The URL standard: the text of the URL that a text spells, with some query parameters
set. None is a text that spells no URL. -/
abbrev UrlStandard := (url : String) → (query : List (String × String)) → Option String

variable (urls : UrlStandard)

/-- The text that `buildUrl` reads as a URL: the path itself if it is one already, as
the links to later pages are, else the path under the base URL. -/
def absolutePath (path : String) : String :=
  if Text.startsWith path "http" then path else settings.baseUrl ++ path

/-- `buildUrl`: the URL of a path with the query parameters set. It is also the text
that what is stored is stored under. -/
def buildUrl (path : String) (query : List (String × String)) : Option String :=
  urls (absolutePath settings path) query

/-- **`request`**: one request, with everything applied. No credential is an error
before anything is sent; else up to `maxRetries + 1` attempts are made, each with what
is stored at the time. -/
def GitHubHttpSettings.request (path : String) (options : GitHubRequestOptions)
    (client : GitHubClient) : Except HttpFailure GitHubResponse × GitHubClient :=
  match buildUrl settings urls path options.query with
  | none => (.error .invalidUrl, client)
  | some url =>
    match settings.token.filter Text.truthy with
    | none =>
      (.error (.github
        { kind := .auth
          message := "No GitHub credential configured (set GITHUB_TOKEN)"
          status := none
          method := options.method
          path := path }),
        client)
    | some token =>
      let (cached, etags) :=
        if options.isConditional then client.etags.get options.method url
        else (none, client.etags)
      let (result, client) :=
        retrying (attempt network settings url path token options cached)
          { kind := .transient
            message := "Request failed"
            status := none
            method := options.method
            path := path }
          (settings.maxRetries + 1) none { client with etags := etags }
      (result.mapError .github, client)

end Request

end Opifex
