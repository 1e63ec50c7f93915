/-
PraxisGrid/Gateway/StoredState.lean

Ids of stored state on their way out and back.

A site's response is tagged on the way out (`Tagger`), and a request that names a tagged id is
pinned to the site and cluster in the tag and sent on with the id that the site knows.  An id can
stand in the path, where the suffix and the query stay, and in the body of a Responses create, where
every other character stays.  Two things bound it: of two tagged ids in one body the first pins the
request and both are stripped, so where they name two holders one site is sent an id that another
made; and a query loses its credential parameters.
-/
import PraxisGrid.Gateway.Control
import PraxisGrid.Gateway.Tagger
import PraxisGrid.Lib.Names

namespace PraxisGrid.Gateway

/-! ### Paths -/

section Back

variable {digests : Digests} {filter : SiteRouteFilter} {reads : Reads} {ctx sent : Context}
  {candidate : RouteCandidate} {site cluster : String} {key : Option TagKey}

end Back

end PraxisGrid.Gateway
