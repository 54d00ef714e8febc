import TypedSql.Connection.Config

/-! Trusted certificates: a bundle of them split into blocks, and what they decide when a server is out of
reach. -/
namespace TypedSql.Connection

/-- The line a certificate begins with. -/
def beginMarker : List Char := "-----BEGIN CERTIFICATE-----".toList

/-- The line a certificate ends with. -/
def endMarker : List Char := "-----END CERTIFICATE-----".toList

/-- The text before the first occurrence of a marker, and the text from there on. -/
def splitAtMarker (marker : List Char) : List Char → Option (List Char × List Char)
  | [] => if marker.isEmpty then some ([], []) else none
  | c :: rest =>
    if marker.isPrefixOf (c :: rest) then some ([], c :: rest)
    else (splitAtMarker marker rest).map fun (before, found) => (c :: before, found)

/-- The blocks of a text. Each reaches from a first marker to the end of the next last marker; what
stands between blocks is dropped. The fuel bounds their number. -/
def blocksFrom : Nat → List Char → Except Problem (List (List Char))
  | 0, _ => .ok []
  | fuel + 1, text =>
    match splitAtMarker beginMarker text with
    | none => .ok []
    | some (_, found) =>
      match splitAtMarker endMarker found with
      | none => .error .unterminatedCertificate
      | some (body, last) => do
        let later ← blocksFrom fuel (last.drop endMarker.length)
        return (body ++ endMarker) :: later

/-- One block for each certificate of a bundle, which must have one. -/
def certificateBlocks (bundle : String) : Except Problem (List String) := do
  let blocks ← blocksFrom bundle.length bundle.toList
  if blocks.isEmpty then .error .noCertificates else return blocks.map String.ofList

/-- What opening a connection to a server that is out of reach reports, where no block of the trusted
bundle holds a readable certificate. The bundle is read unless any certificate is accepted. -/
def unreachableProblem (mode : SslMode) (acceptsInvalidCerts : Bool) (bundle : Option String) : Problem :=
  if mode = .disable then .unreachable
  else if acceptsInvalidCerts && !mode.isStrict then .unreachableSecurely
  else match bundle with
    | none => .unreachableSecurely
    | some text =>
      match certificateBlocks text with
      | .ok _ => .unreadableCertificate
      | .error problem => problem

end TypedSql.Connection
