import CalendarSearch.Plan.Basic
import CalendarSearch.Predicate.Printer

/-!
Plans in words: what the store searches by, the components that the filter names, and what is
checked again.
-/

namespace CalendarSearch

namespace Junction

def title : Junction → String
  | any => "AnyOf"
  | all => "AllOf"

end Junction

def Deferral.describe (d : Deferral) : String :=
  let names := ", ".intercalate (d.filters.map PropFilter.name)
  s!"  {d.kind.component} ({d.test.title}): {names}\n"

def Plan.describe (p : Plan) : String :=
  let root := match p.root with
    | some root => s!"Predicate: {root.describe}\n"
    | none => "Predicate: (match all)\n"
  let components := if p.kinds.isEmpty then "" else
    "Components: " ++ ", ".intercalate (p.kinds.map ComponentKind.component) ++ "\n"
  let residual := match p.residual with
    | some residual => s!"Residual: {residual.describe}\n"
    | none => ""
  let checks := if p.recheck then
      "Post-filter:\n" ++
        String.join (p.deferralsByKind.flatMap fun (_, groups) => groups.map Deferral.describe)
    else "Post-filter: none\n"
  root ++ components ++ residual ++ checks

end CalendarSearch
