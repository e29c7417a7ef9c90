import IdentityService.Defs.Config

/-! The URL that the migrations connect to. -/

namespace IdentityService

namespace Go

def indexByte (b : Bytes) (c : UInt8) : Option Nat := b.findIdx? (· = c)

def lastIndexByte (b : Bytes) (c : UInt8) : Option Nat :=
  (b.reverse.findIdx? (· = c)).map (fun i => b.length - 1 - i)

def unreserved (b : UInt8) : Bool :=
  (0x61 ≤ b && b ≤ 0x7A) || (0x41 ≤ b && b ≤ 0x5A) || (0x30 ≤ b && b ≤ 0x39) ||
    b ∈ [0x2D, 0x5F, 0x2E, 0x7E]

def queryEscape (b : Bytes) : Bytes :=
  b.flatMap (fun c =>
    if unreserved c then [c]
    else if c = 0x20 then [0x2B]
    else [0x25, upperHex (c / 16), upperHex (c % 16)])
where
  upperHex (d : UInt8) : UInt8 := if d < 10 then 0x30 + d else 0x37 + d

end Go

/-- The part of `net/url` that other URLs are taken apart with: `U` are URLs and `V` the values of
their queries. -/
structure NetURL (U V : Type) where
  parse : Bytes → Except String U
  query : U → V
  set : V → Bytes → Bytes → V
  encode : V → Bytes
  setPath : U → Bytes → U
  setRawQuery : U → Bytes → U
  string : U → Bytes

def mysqlScheme : Bytes := Go.ascii "mysql://"

def migrationsTable : Bytes := Go.ascii "x-migrations-table="

/-- The database of a MySQL URL, which need not be a URL to `net/url`, is what stands between the
last `/` and the query. -/
def withMySQLDatabase (databaseURL databaseName : Bytes) : Except String Bytes :=
  let pathEnd := (Go.indexByte databaseURL 0x3F).getD databaseURL.length
  match Go.lastIndexByte (databaseURL.take pathEnd) 0x2F with
  | none => .error "mysql migration URL is missing database path"
  | some slash =>
    .ok (databaseURL.take (slash + 1) ++ databaseName ++ databaseURL.drop pathEnd)

def withMySQLTable (databaseURL table : Bytes) : Bytes :=
  if table = [] then databaseURL
  else
    let separator := if 0x3F ∈ databaseURL then 0x26 else 0x3F
    databaseURL ++ separator :: migrationsTable ++ Go.queryEscape table

def withMigrationOptions {U V : Type} (net : NetURL U V)
    (databaseURL databaseName table schema : Bytes) : Except String Bytes :=
  if databaseName = [] ∧ table = [] ∧ schema = [] then .ok databaseURL
  else if mysqlScheme.isPrefixOf databaseURL then
    (if databaseName = [] then .ok databaseURL
      else withMySQLDatabase databaseURL databaseName).map (withMySQLTable · table)
  else
    match net.parse databaseURL with
    | .error err => .error ("parse migration database URL: " ++ err)
    | .ok parsed =>
      let query := net.query parsed
      let parsed := if databaseName = [] then parsed else net.setPath parsed (0x2F :: databaseName)
      let query := if table = [] then query else net.set query (Go.ascii "x-migrations-table") table
      let query := if schema = [] then query else net.set query (Go.ascii "search_path") schema
      .ok (net.string (net.setRawQuery parsed (net.encode query)))

end IdentityService
