import PirateServer.TaskQueue.Entry

/-! One stream of the request bus: the parts of a request are collected until the last one
arrives, and the request is executed then. -/
namespace PirateServer.StackTun
open Lib TaskQueue

/-- What has arrived of a request; this is also what `execute_bus_request` is given. -/
structure BusAcc where
  requestId : String
  traceId : String
  hopId : UInt32
  sourceNodeId : String
  targetNodeId : String
  method : String
  scheme : String
  host : String
  path : String
  headers : Table String String
  body : List UInt8
  deriving DecidableEq

def BusAcc.default : BusAcc := ⟨"","",0,"","","","","","",∅,[]⟩

/-- An empty text leaves what is there. -/
def keepUnless (old new : String) : String := if new = "" then old else new

/-- Keys are trimmed and lower-cased; a blank one is passed over. -/
def insertHeader (hm : Table String String) (hv : BusKv) : Table String String :=
  let k := Text.toAsciiLowercase (Text.trim hv.key)
  if k = "" then hm else hm.insert k hv.value

/-- The hop id, unlike the texts, is taken from every part. -/
def BusAcc.applyPart (acc : BusAcc) (env : BusRequestEnvelope) : BusAcc where
  requestId := keepUnless acc.requestId env.requestId
  traceId := keepUnless acc.traceId env.traceId
  hopId := env.hopId
  sourceNodeId := keepUnless acc.sourceNodeId env.sourceNodeId
  targetNodeId := keepUnless acc.targetNodeId env.targetNodeId
  method := keepUnless acc.method env.method
  scheme := keepUnless acc.scheme env.scheme
  host := keepUnless acc.host env.host
  path := keepUnless acc.path env.path
  headers := env.headers.foldl insertHeader acc.headers
  body := acc.body++env.bodyChunk

/-- What a read of the stream gives, as long as it does not end. -/
inductive Incoming
  | requestPart (env : BusRequestEnvelope)
  | empty
  | error (text : String)
  deriving DecidableEq

/-- The requests that were executed, what has been collected since, and the fatal error that was
sent. -/
structure BusSession where
  executed : List BusAcc
  acc : BusAcc
  fatal : Option String
  deriving DecidableEq

def BusSession.after (r : BusAcc) (s : BusSession) : BusSession :=
  { s with executed := r::s.executed }

def busSessionLoop (acc : BusAcc) : List Incoming → BusSession
  | [] => ⟨[],acc,none⟩
  | .requestPart env::rest =>
    if env.bodyFinished then
      (busSessionLoop .default rest).after (acc.applyPart env)
    else busSessionLoop (acc.applyPart env) rest
  | .empty::rest => busSessionLoop acc rest
  | .error e::_ => ⟨[],acc,some ("read stream: "++e)⟩

def firstPart (env : BusRequestEnvelope) (chunk : List UInt8) (finished : Bool) :
    BusRequestEnvelope := { env with bodyChunk := chunk, bodyFinished := finished }

/-- A part that carries a chunk only; every other field has its default. -/
def continuationPart (chunk : List UInt8) (finished : Bool) : BusRequestEnvelope :=
  ⟨"","",0,"","","","","","",[],chunk,finished,0⟩

def continuationParts : List (List UInt8) → List Incoming
  | [] => []
  | [chunk] => [.requestPart (continuationPart chunk true)]
  | chunk::chunks => .requestPart (continuationPart chunk false)::continuationParts chunks

def requestParts (env : BusRequestEnvelope) : List (List UInt8) → List Incoming
  | [] => []
  | [chunk] => [.requestPart (firstPart env chunk true)]
  | chunk::chunks => .requestPart (firstPart env chunk false)::continuationParts chunks

variable {acc : BusAcc} {env : BusRequestEnvelope} {chunk : List UInt8}

lemma applyPart_continuation (finished : Bool) : acc.applyPart (continuationPart chunk finished) =
      { acc with hopId := 0, body := acc.body++chunk } := by
  simp [BusAcc.applyPart,continuationPart,keepUnless]

lemma busSessionLoop_continuation (chunks : List (List UInt8)) (hne : chunks ≠ [])
    (rest : List Incoming) : busSessionLoop acc (continuationParts chunks++rest) =
      (busSessionLoop .default rest).after
        { acc with hopId := 0, body := acc.body++chunks.flatten } := by
  induction chunks generalizing acc with
  | nil => exact absurd rfl hne
  | cons chunk chunks ih =>
    cases chunks with
    | nil =>
      have hlast : busSessionLoop acc (continuationParts [chunk]++rest) =
          (busSessionLoop .default rest).after (acc.applyPart (continuationPart chunk true)) := rfl
      rw [hlast,applyPart_continuation]
      simp
    | cons chunk' chunks =>
      have hmore : busSessionLoop acc (continuationParts (chunk::chunk'::chunks)++rest) =
          busSessionLoop (acc.applyPart (continuationPart chunk false))
            (continuationParts (chunk'::chunks)++rest) := rfl
      rw [hmore,applyPart_continuation,ih (by simp)]
      simp

lemma applyPart_firstPart (chunk : List UInt8) (finished : Bool) :
    acc.applyPart (firstPart env chunk finished) =
      { acc.applyPart (firstPart env [] true) with body := acc.body++chunk } := by
  simp [BusAcc.applyPart,firstPart]

lemma busSessionLoop_single (body : List UInt8) (rest : List Incoming) :
    busSessionLoop acc (requestParts env [body]++rest) =
      (busSessionLoop .default rest).after (acc.applyPart (firstPart env body true)) := rfl

lemma busSessionLoop_parts (chunk : List UInt8) (chunks : List (List UInt8)) (hne : chunks ≠ [])
    (rest : List Incoming) : busSessionLoop acc (requestParts env (chunk::chunks)++rest) =
      (busSessionLoop .default rest).after
        { acc.applyPart (firstPart env (chunk::chunks).flatten true) with hopId := 0 } := by
  cases chunks with
  | nil => exact absurd rfl hne
  | cons chunk' chunks =>
    have hmore : busSessionLoop acc (requestParts env (chunk::chunk'::chunks)++rest) =
        busSessionLoop (acc.applyPart (firstPart env chunk false))
          (continuationParts (chunk'::chunks)++rest) := rfl
    rw [hmore,busSessionLoop_continuation _ (by simp),applyPart_firstPart,
      applyPart_firstPart (chunk::chunk'::chunks).flatten]
    simp

/-- However a body is cut, one request is executed and nothing of it is left; it is the request
of a single part exactly when the hop id is zero or there is only one chunk. -/
theorem bus_reassembly_iff (env : BusRequestEnvelope) (chunks : List (List UInt8))
    (hne : chunks ≠ []) (rest : List Incoming) :
    ∃ whole cut, busSessionLoop .default (requestParts env [chunks.flatten]++rest) =
        (busSessionLoop .default rest).after whole ∧
      busSessionLoop .default (requestParts env chunks++rest) =
        (busSessionLoop .default rest).after cut ∧
      (cut = whole ↔ env.hopId = 0 ∨ chunks.length = 1) := by
  obtain ⟨chunk,more,rfl⟩ := List.exists_cons_of_ne_nil hne
  by_cases hmore : more = []
  · subst hmore
    refine ⟨_,_,busSessionLoop_single _ _,busSessionLoop_single _ _,?_⟩
    simp
  · refine ⟨_,_,busSessionLoop_single _ _,busSessionLoop_parts chunk more hmore rest,?_⟩
    have hhop : (BusAcc.default.applyPart (firstPart env (chunk::more).flatten true)).hopId =
        env.hopId := rfl
    have hlen : (chunk::more).length ≠ 1 := by simpa using hmore
    constructor
    · intro heq
      have hids := congrArg BusAcc.hopId heq
      rw [hhop] at hids
      exact .inl hids.symm
    · rintro (hzero | hone)
      · rw [← hzero,← hhop]
      · exact absurd hone hlen

def sampleEnvelope (hopId : UInt32) : BusRequestEnvelope :=
  ⟨"r1","t1",hopId,"a","b","PUT","http","example.com","/x",[⟨"Accept","*/*"⟩],[],false,0⟩

theorem bus_reassembly_no_hops :
    busSessionLoop .default (requestParts (sampleEnvelope 0) [[1],[2]]++[]) =
      busSessionLoop .default (requestParts (sampleEnvelope 0) [[1,2]]++[]) := by
  obtain ⟨whole,cut,hwhole,hcut,hiff⟩ :=
    bus_reassembly_iff (sampleEnvelope 0) [[1],[2]] (by simp) []
  rw [hcut,hiff.mpr (.inl rfl)]
  exact hwhole.symm

theorem bus_hop_id_lost :
    (busSessionLoop .default (requestParts (sampleEnvelope 3) [[1,2]])).executed.map BusAcc.hopId =
        [3] ∧ (busSessionLoop .default (requestParts (sampleEnvelope 3) [[1],[2]])).executed.map
        BusAcc.hopId = [0] := by
  decide +kernel

end PirateServer.StackTun
