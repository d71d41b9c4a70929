import CalendarSearch.Command.Run
import CalendarSearch.Main
import CalendarSearch.Plan.Codec
import CalendarSearch.Plan.Printer
import CalendarSearch.Search
import CalendarSearch.Settings.File
import CalendarSearch.Proofs.Evaluation
import CalendarSearch.Proofs.Builders
import CalendarSearch.Proofs.Traversal
import CalendarSearch.Proofs.Relaxation
import CalendarSearch.Proofs.Conditions
import CalendarSearch.Proofs.Nodes
import CalendarSearch.Proofs.Exactness
import CalendarSearch.Proofs.Stripping
import CalendarSearch.Proofs.Legacy
import CalendarSearch.Proofs.Validity
import CalendarSearch.Proofs.Acceptance
import CalendarSearch.Proofs.Refusal
import CalendarSearch.Proofs.Searchable
import CalendarSearch.Proofs.Bookkeeping
import CalendarSearch.Proofs.Outcome
import CalendarSearch.Proofs.Answers
import CalendarSearch.Proofs.Deferrals
import CalendarSearch.Proofs.Negation
import CalendarSearch.Proofs.Elements
import CalendarSearch.Proofs.Reordering
import CalendarSearch.Proofs.Grammar
import CalendarSearch.Proofs.Variations
import CalendarSearch.Proofs.Rendering
import CalendarSearch.Proofs.Decoding
import CalendarSearch.Proofs.JsonTexts
import CalendarSearch.Proofs.Grouping
import CalendarSearch.Proofs.Days
import CalendarSearch.Proofs.FieldWidths
import CalendarSearch.Proofs.Ranges
import CalendarSearch.Proofs.Checked
import CalendarSearch.Proofs.Overflow
import CalendarSearch.Proofs.Overlap
import CalendarSearch.Proofs.Events
import CalendarSearch.Proofs.Digits
import CalendarSearch.Proofs.Stamps
import CalendarSearch.Proofs.Lenience
import CalendarSearch.Proofs.Tolerance
import CalendarSearch.Proofs.Durations
import CalendarSearch.Proofs.DurationForms
import CalendarSearch.Proofs.Nesting
import CalendarSearch.Proofs.Triggers
import CalendarSearch.Proofs.TextSearch
import CalendarSearch.Proofs.AlarmForms
import CalendarSearch.Proofs.TriggerForms
import CalendarSearch.Proofs.Zones
import CalendarSearch.Proofs.Scoping
import CalendarSearch.Proofs.Parameters
import CalendarSearch.Proofs.Commands
