import AgeCypher.Nodes
import AgeCypher.Expr
import AgeCypher.Entity
import AgeCypher.JoinQuals
import AgeCypher.DirectedJoin
import AgeCypher.Semantics
import AgeCypher.State
import AgeCypher.Match
import AgeCypher.Items
import AgeCypher.Create
import AgeCypher.Update
import AgeCypher.Clause
import AgeCypher.Logic
import AgeCypher.Steps
import AgeCypher.ProjectionSteps
import AgeCypher.CreateSteps
import AgeCypher.Registry
import AgeCypher.Scope
import AgeCypher.Numbering
import AgeCypher.SortGroup
import AgeCypher.GroupClause
import AgeCypher.PathMeaning
import AgeCypher.MatchMeaning
import AgeCypher.SortClause
import AgeCypher.MatchClause
import AgeCypher.CreatePlan
import AgeCypher.PatternScope
import AgeCypher.PatternVariables
import AgeCypher.RangeRefs
