import CalendarSearch.Filter.Codec
import CalendarSearch.Plan.Basic
import CalendarSearch.Predicate.Codec
import CalendarSearch.Settings.Codec

/-!
Plans as JSON.
-/

namespace CalendarSearch

/-- One group of deferred prop-filters; its kind is the name of the member that holds it. -/
def Deferral.toJson (d : Deferral) : Json :=
  .record [("test", d.test.toJson), ("filters", .array (d.filters.map PropFilter.toJson))]

def Plan.toJson (p : Plan) : Json :=
  .record ([
    ("root", .nullable Predicate.toJson p.root),
    ("post_filter_required", .bool p.recheck)] ++
    Json.optionalMember "residual" (p.residual.map Predicate.toJson) ++ [
    ("deferred", .record (p.deferralsByKind.map fun (kind, groups) =>
      (kind.name, .array (groups.map Deferral.toJson)))),
    ("kinds", .array (p.kinds.map ComponentKind.toJson)),
    ("mode", p.mode.toJson)])

end CalendarSearch
