import WhirlpoolAc.CountedLoop
import WhirlpoolAc.DeviceRuns

/-!
# The answer to unknown paths

The web server passes every request that no route matches to `handleNotFound`, which
answers with a page naming the path, the method and each argument of the request. How
many arguments a request carries is up to the client.

The argument loop counts in one byte. Requests with fewer than 256 arguments get their
page after one iteration for each argument; from 256 on the byte wraps below the count
for ever and the routine never answers.
-/

namespace WhirlpoolAc.NotFoundPage

open ByteStrings CountedLoop Firmware DeviceRuns

/-- The methods of a request. -/
inductive HTTPMethod where
  | HTTP_ANY
  | HTTP_GET
  | HTTP_HEAD
  | HTTP_POST
  | HTTP_PUT
  | HTTP_PATCH
  | HTTP_DELETE
  | HTTP_OPTIONS
deriving DecidableEq, Repr

/-- What the routine asks the server about the current request: path, method, and the
arguments with their names. The number of arguments is an `int`. -/
structure Request where
  uri : Bytes
  method : HTTPMethod
  arguments : List (Bytes × Bytes)
  counted : arguments.length < 2 ^ 31

/-- `args`. -/
def Request.args (request : Request) : Nat := request.arguments.length

/-- `argName`: empty outside the arguments. -/
def Request.argName (request : Request) (i : Nat) : Bytes :=
  (request.arguments[i]?.map Prod.fst).getD []

/-- `arg`: empty outside the arguments. -/
def Request.arg (request : Request) (i : Nat) : Bytes :=
  (request.arguments[i]?.map Prod.snd).getD []

/-- The message in front of the arguments. -/
def heading (request : Request) : Bytes :=
  lit "File Not Found\n\n" ++ lit "URI: " ++ request.uri ++ lit "\nMethod: " ++
    (if request.method = .HTTP_GET then lit "GET" else lit "POST") ++ lit "\nArguments: " ++
    CxxLibrary.toString request.args ++ lit "\n"

/-- One argument's line. -/
def line (name value : Bytes) : Bytes := lit " " ++ name ++ lit ": " ++ value ++ lit "\n"

/-- The routine, allowed a number of iterations of its loop over a `uint8_t`. -/
def handleNotFound (allowed : Nat) (request : Request) (world : World) : Option World := do
  let message ← countedLoop request.args
    (fun i message => message ++ line (request.argName i) (request.arg i))
    allowed (0 : BitVec 8) (heading request)
  return world.emit [.response 404 message]

/-- The page that lists every argument once, in order. -/
def fullPage (request : Request) : Bytes :=
  heading request ++ request.arguments.flatMap fun argument => line argument.1 argument.2

/-- The routine ends after exactly one iteration for each argument, and answers with
the full page. -/
def ListsArguments (request : Request) : Prop :=
  ∀ allowed world, handleNotFound allowed request world =
    if request.args ≤ allowed then some (world.emit [.response 404 (fullPage request)]) else none

/-- Appending a line for each position from some point on appends the lines of the
arguments from there.

Proof: induction on the number of arguments left. -/
theorem lines_from (request : Request) (left start : Nat) (message : Bytes)
    (rest : start + left = request.args) :
    (List.range' start left).foldl
        (fun message i => message ++ line (request.argName i) (request.arg i)) message =
      message ++ (request.arguments.drop start).flatMap
        fun argument => line argument.1 argument.2 := by
  induction left generalizing start message with
  | zero =>
    have past : request.arguments.length ≤ start := by
      rw [Request.args] at rest
      omega
    simp [List.drop_eq_nil_of_le past]
  | succ left ih =>
    have inside : start < request.arguments.length := by
      rw [Request.args] at rest
      omega
    rw [List.range'_succ, List.foldl_cons, ih (start + 1) _ (by omega),
      List.drop_eq_getElem_cons inside, List.flatMap_cons, List.append_assoc]
    simp [Request.argName, Request.arg, List.getElem?_eq_getElem inside]

/-- Fewer than 256 arguments: the counter reaches their number. -/
theorem handleNotFound_ends (request : Request) (few : request.args < 256) :
    ListsArguments request := by
  intro allowed world
  have lines := lines_from request request.args 0 (heading request) (by simp)
  rw [handleNotFound, countedLoop_ends request.args _ few allowed 0 _ (by simp)]
  by_cases enough : request.args ≤ allowed
  · simp [enough, fullPage, lines]
  · simp [enough]

/-- At least 256 arguments: the loop is still running whatever it is allowed. -/
theorem handleNotFound_hangs (request : Request) (many : 256 ≤ request.args) (allowed : Nat)
    (world : World) : handleNotFound allowed request world = none := by
  rw [handleNotFound, countedLoop_never_ends request.args _ many]
  rfl

/-- The response would have to come once every argument had its iteration. -/
theorem unlisted_of_many (request : Request) (many : 256 ≤ request.args) :
    ¬ ListsArguments request := by
  intro lists
  have hangs := handleNotFound_hangs request many request.args powerOn
  rw [lists, if_pos (Nat.le_refl _)] at hangs
  cases hangs

/-- A request is answered with all of its arguments exactly when it has fewer than 256
of them. -/
theorem arguments_listed_iff (request : Request) :
    ListsArguments request ↔ request.args < 256 := by
  constructor
  · intro lists
    by_contra many
    exact unlisted_of_many request (Nat.le_of_not_lt many) lists
  · exact handleNotFound_ends request

/-- A request for an unknown path with 256 equal arguments. -/
def flood : Request where
  uri := lit "/"
  method := .HTTP_GET
  arguments := List.replicate 256 (lit "a", lit "1")
  counted := by
    rw [List.length_replicate]
    decide

/-- It is never answered. -/
theorem flood_unanswered :
    (∀ allowed world, handleNotFound allowed flood world = none) ∧ ¬ ListsArguments flood := by
  have many : 256 ≤ flood.args := (List.length_replicate ..).ge
  constructor
  · exact handleNotFound_hangs flood many
  · exact unlisted_of_many flood many

end WhirlpoolAc.NotFoundPage
