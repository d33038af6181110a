import Mathlib.Data.Rat.Init
import Mathlib.Algebra.Order.Ring.Rat
import InetManet.Library.TransitionSystem
import InetManet.Network.Address

/-!
# The traffic engineering database

A list of links, each with the router that advertises it, its metric and the bandwidth that is left
at each priority. Constrained shortest paths are computed over the links that are up and have enough
bandwidth left: vertices are created on the fly from the addresses, the edges are relaxed in place
until a round changes nothing, and the path is rebuilt from the parent indexes. Metrics and
bandwidths are exact numbers.
-/

namespace InetManet.TED

open TransitionSystem

/-- A link in the database and in link state messages. -/
structure TELinkStateInfo where
  advrouter : IPAddress
  linkid : IPAddress
  localAddr : IPAddress := 0
  remoteAddr : IPAddress := 0
  metric : ℚ
  maxBandwidth : ℚ
  unResvBandwidth : Fin 8 → ℚ
  timestamp : ℤ
  sourceId : ℕ
  messageId : ℕ
  state : Bool

inductive Fault
  | assertion
  /-- The loop over the parents does not end. -/
  | endless
  deriving DecidableEq

/-! ## Constrained shortest paths -/

def lsInfinity : ℚ := 10 ^ 16

structure Vertex where
  node : IPAddress
  parent : Option ℕ
  dist : ℚ

/-- An edge between two vertex indexes. -/
structure IndexEdge where
  src : ℕ
  dest : ℕ
  metric : ℚ

/-- The index of the vertex, which is created if it is not there. -/
def assignIndex (vertices : List Vertex) (nodeAddr : IPAddress) : ℕ × List Vertex :=
  match vertices.findIdx? fun v ↦ v.node = nodeAddr with
  | some i => (i, vertices)
  | none => (vertices.length, vertices ++ [⟨nodeAddr, none, lsInfinity⟩])

def TELinkStateInfo.isUsable (link : TELinkStateInfo) (reqBandwidth : ℚ) (priority : Fin 8) : Bool :=
  link.state && decide (reqBandwidth ≤ link.unResvBandwidth priority)

/-- The loop that selects the edges and collects the vertices. -/
def collect (reqBandwidth : ℚ) (priority : Fin 8) (x : List Vertex × List IndexEdge)
    (link : TELinkStateInfo) : List Vertex × List IndexEdge :=
  if link.isUsable reqBandwidth priority then
    let (src, vertices) := assignIndex x.1 link.advrouter
    let (dest, vertices) := assignIndex vertices link.linkid
    (vertices, x.2 ++ [⟨src, dest, link.metric⟩])
  else x

/-- The body of the inner loop, with the flag `mod`. -/
def relaxEdge (x : List Vertex × Bool) (e : IndexEdge) : Except Fault (List Vertex × Bool) :=
  match x.1[e.src]?, x.1[e.dest]? with
  | some u, some v =>
      if e.src = e.dest then .error .assertion
      else if v.dist ≤ u.dist + e.metric then .ok x
      else .ok (x.1.set e.dest { v with dist := u.dist + e.metric, parent := some e.src }, true)
  | _, _ => .error .assertion

/-- The outer loop, at most `rounds` times. -/
def relaxRounds (edges : List IndexEdge) : ℕ → List Vertex → Except Fault (List Vertex)
  | 0, vertices => .ok vertices
  | rounds + 1, vertices => do
      let x ← edges.foldlM relaxEdge (vertices, false)
      if x.2 then relaxRounds edges rounds x.1 else return x.1

/-- `vertices[i].dist = 0.0`. -/
def setSource (vertices : List Vertex) (i : ℕ) : List Vertex :=
  vertices.modify i fun v ↦ { v with dist := 0 }

def calculateShortestPaths (routerId : IPAddress) (topology : List TELinkStateInfo)
    (reqBandwidth : ℚ) (priority : Fin 8) : Except Fault (List Vertex) :=
  let (vertices, edges) := topology.foldl (collect reqBandwidth priority) ([], [])
  let (srcIndex, vertices) := assignIndex vertices routerId
  let vertices := setSource vertices srcIndex
  relaxRounds edges (vertices.length - 1) vertices

/-- The first listed vertex of least distance, if there is one that can be reached. -/
def nearest (dest : List IPAddress) (x : ℚ × Option ℕ) (v : Vertex × ℕ) : ℚ × Option ℕ :=
  if x.1 ≤ v.1.dist then x
  else if v.1.node ∈ dest then (v.1.dist, some v.2) else x

/-- The loop that goes up the parents and puts each in front of the result. -/
def walkUp (vertices : List Vertex) : ℕ → ℕ → List IPAddress → Except Fault (List IPAddress)
  | 0, _, _ => .error .endless
  | fuel + 1, i, result =>
      match vertices[i]? with
      | none => .error .assertion
      | some v =>
          match v.parent with
          | none => .ok result
          | some p =>
              match vertices[p]? with
              | none => .error .assertion
              | some u => walkUp vertices fuel p (u.node :: result)

def calculateShortestPath (routerId : IPAddress) (dest : List IPAddress)
    (topology : List TELinkStateInfo) (reqBandwidth : ℚ) (priority : Fin 8) :
    Except Fault (List IPAddress) := do
  let vertices ← calculateShortestPaths routerId topology reqBandwidth priority
  match (vertices.zipIdx.foldl (nearest dest) (lsInfinity, none)).2 with
  | none => return []
  | some i =>
      match vertices[i]? with
      | none => .error .assertion
      | some v => walkUp vertices vertices.length i [v.node]

end InetManet.TED
