import TreeSelect.Text.Case
import TreeSelect.Text.Cut
import TreeSelect.Text.Numeral
import TreeSelect.Text.Shown
import TreeSelect.Text.Utf8
import TreeSelect.Selector.Parse
import TreeSelect.ESTree.Fields
import TreeSelect.Tree.Index
import TreeSelect.Tree.Listing
import TreeSelect.Tree.Fault
import TreeSelect.Matching.Chain
import TreeSelect.Source.Query
import TreeSelect.Report.Frame
import TreeSelect.Glob.Brace
import TreeSelect.Glob.Segments
import TreeSelect.Ignore.Rule
import TreeSelect.Log.Channel
import TreeSelect.Log.Date
import TreeSelect.Log.Template
import TreeSelect.Settings.Session
import TreeSelect.Files.Search
import TreeSelect.Failure
import TreeSelect.Run.Report
import TreeSelect.Run.Query
import TreeSelect.CommandLine.Execute
import TreeSelect.Main
import TreeSelect.Proofs.GlobDescent
import TreeSelect.Proofs.IgnoreWay
import TreeSelect.Proofs.PlainTree
import TreeSelect.Proofs.SearchWalk
import TreeSelect.Proofs.SearchFilter
import TreeSelect.Proofs.TreeWays
import TreeSelect.Proofs.QueryChain
import TreeSelect.Proofs.SelectorScan
import TreeSelect.Proofs.SelectorDraft
import TreeSelect.Proofs.SelectorMeaning
import TreeSelect.Proofs.SelectorSpelling
import TreeSelect.Proofs.SelectorIntake
import TreeSelect.Proofs.SelectorPrint
import TreeSelect.Proofs.SelectorRoundTrip
import TreeSelect.Proofs.MatchRange
import TreeSelect.Proofs.GroupedMatch
import TreeSelect.Proofs.IgnoreComponents
import TreeSelect.Proofs.SelectorSpacing
import TreeSelect.Proofs.SelectorFailure
import TreeSelect.Proofs.SelectionMap
import TreeSelect.Proofs.Trivia
import TreeSelect.Proofs.FirstFault
import TreeSelect.Proofs.RunReport
import TreeSelect.Proofs.SettingPrecedence
import TreeSelect.Proofs.GrammarPreload
import TreeSelect.Proofs.QueryUnion
import TreeSelect.Proofs.BraceExpansion
import TreeSelect.Proofs.GlobCut
import TreeSelect.Proofs.DescentReach
import TreeSelect.Proofs.UnclosedBrace
import TreeSelect.Proofs.BraceScan
import TreeSelect.Proofs.IndexTraversal
import TreeSelect.Proofs.IndexOrder
import TreeSelect.Proofs.AliasUnion
import TreeSelect.Proofs.AttributePath
import TreeSelect.Proofs.SiblingPlace
import TreeSelect.Proofs.FrameLines
import TreeSelect.Proofs.SelectorSentence
import TreeSelect.Proofs.OpenMark
import TreeSelect.Proofs.SelectorExpected
