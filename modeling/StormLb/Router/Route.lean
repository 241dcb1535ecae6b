import Std.Data.ExtTreeMap
import StormLb.Effects.Program
import StormLb.Json
import StormLb.Text.Str

/-!
# The route table

`fetch_table` and what it calls: the HTTPRoutes of the apiserver, the Services
their backends name, and the annotations that say how a backend is dialled.
-/

namespace StormLb.Router

open StormLb.Effects StormLb.Text

/-- Where to dial, and for TLS the name the backend's certificate must carry. -/
structure Backend where
  addr : String
  tls : Option String
  deriving DecidableEq, Repr

/-- The backend of every hostname. -/
abbrev Table := Std.ExtTreeMap String Backend

/-! ## The apiserver -/

/-- A response: its status, and its body or why that is not JSON. -/
structure Response where
  status : Nat
  body : Except String Json

inductive ApiError where
  | request (error : String)
  | denied (status : Nat) (url : String) (withToken : Bool)
  | failed (status : Nat) (url : String)
  | notJson (error : String)
  deriving DecidableEq, Repr

/-- A request to the apiserver. -/
structure Get where
  url : String
  token : Option String
  deriving DecidableEq, Repr

/-- The answer is the response, or why there was none. -/
abbrev Get.Ans (_ : Get) : Type :=
  Except String Response

abbrev Fetch := Program Get Get.Ans

abbrev Fetched := History Get Get.Ans

/-- What a response says. -/
def Response.json (get : Get) (response : Response) : Except ApiError Json :=
  if response.status = 401 ∨ response.status = 403 then
    .error (.denied response.status get.url get.token.isSome)
  else if 400 ≤ response.status ∧ response.status < 600 then
    .error (.failed response.status get.url)
  else response.body.mapError .notJson

/-- GET a JSON object from the apiserver, as the router. -/
def apiGet (url : String) (token : Option String) : Fetch (Except ApiError Json) := do
  match ← Program.perform { url, token : Get } with
  | .error error => return .error (.request error)
  | .ok response => return response.json { url, token }

/-! ## One route -/

/-- Why a route has no usable backend. -/
inductive RouteError where
  | noBackend
  | noClusterIp (namespace_ service : String)
  | badProtocol (protocol : String)
  | api (error : ApiError)
  deriving DecidableEq, Repr

def protocolKey : String := "storm.io/backend-protocol"
def serverNameKey : String := "storm.io/backend-server-name"
def backendKey : String := "storm.io/backend"

def annotations (route : Json) : Json :=
  (route.get "metadata").get "annotations"

def annotated (route : Json) (key : String) : Option String :=
  ((annotations route).get key).asStr

/-- The host of an address, without its brackets. -/
def addressHost (addr : String) : String :=
  let host := match rsplitOnce ':' addr.toList with
    | some (host, _) => host
    | none => addr.toList
  String.ofList ((host.dropWhile (· = '[')).rdropWhile (· = ']'))

/-- The name an https backend is verified for. -/
def serverName (route : Json) (addr : String) : String :=
  (annotated route serverNameKey).getD (addressHost addr)

/-- The backend with the route's protocol. -/
def withProtocol (route : Json) (addr : String) : Except RouteError Backend :=
  match (annotated route protocolKey).map lowercase with
  | none => .ok { addr, tls := none }
  | some protocol =>
      if protocol = "http" then .ok { addr, tls := none }
      else if protocol = "https" then .ok { addr, tls := some (serverName route addr) }
      else .error (.badProtocol protocol)

/-- The address of a Service and a port, if it has a cluster IP. -/
def serviceAddr (namespace_ service : String) (port : UInt64) (json : Json) :
    Except RouteError String :=
  match ((json.get "spec").get "clusterIP").asStr with
  | some ip =>
      if ip ≠ "" ∧ ip ≠ "None" then .ok s!"{ip}:{port.toNat}"
      else .error (.noClusterIp namespace_ service)
  | none => .error (.noClusterIp namespace_ service)

/-- The first backendRef of the first rule. -/
def backendRef (route : Json) : Json :=
  ((((route.get "spec").get "rules").at_ 0).get "backendRefs").at_ 0

/-- Where the route's backend is: its annotation, or its first backendRef's Service. -/
def backendOf (api : String) (token : Option String) (ns : String) (route : Json) :
    Fetch (Except RouteError String) := do
  match annotated route backendKey with
  | some addr => return .ok addr
  | none =>
      let bref := backendRef route
      match (bref.get "name").asStr with
      | none => return .error .noBackend
      | some svc =>
          let port := (bref.get "port").asU64.getD 80
          let sns := (bref.get "namespace").asStr.getD ns
          match ← apiGet s!"{api}/api/v1/namespaces/{sns}/services/{svc}" token with
          | .error error => return .error (.api error)
          | .ok json => return serviceAddr sns svc port json

/-- The hostnames of a route. -/
def hostnames (route : Json) : List String :=
  (((route.get "spec").get "hostnames").elements.filterMap Json.asStr).map lowercase

/-! ## The table -/

/-- Put one backend under every hostname. -/
def insertAll (table : Table) (hosts : List String) (backend : Backend) : Table :=
  hosts.foldl (fun table host => table.insert host backend) table

/-- Put one route into the table; a route without a usable backend is left out. -/
def addRoute (api : String) (token : Option String) (table : Table) (route : Json) :
    Fetch Table := do
  let ns := ((route.get "metadata").get "namespace").asStr.getD "default"
  match ← backendOf api token ns route with
  | .error _ => return table
  | .ok addr =>
      match withProtocol route addr with
      | .error _ => return table
      | .ok backend => return insertAll table (hostnames route) backend

def addRoutes (api : String) (token : Option String) (table : Table) : List Json → Fetch Table
  | [] => return table
  | route :: rest => do
      let table ← addRoute api token table route
      addRoutes api token table rest

def routesUrl (api : String) : String :=
  s!"{api}/apis/gateway.networking.k8s.io/v1/httproutes"

/-- The table of all routes. -/
def fetchTable (api : String) (token : Option String) : Fetch (Except ApiError Table) := do
  match ← apiGet (routesUrl api) token with
  | .error error => return .error error
  | .ok list => return .ok (← addRoutes api token ∅ (list.get "items").elements)

end StormLb.Router
