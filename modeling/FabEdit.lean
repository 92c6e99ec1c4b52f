import FabEdit.Session
import FabEdit.Token.Category
import FabEdit.Token.Options
import FabEdit.Markup
import FabEdit.Proofs.SessionRun
import FabEdit.Proofs.LexerComments
import FabEdit.Proofs.BlockTrees
import FabEdit.Proofs.TabKey
import FabEdit.Proofs.TabHistory
import FabEdit.Proofs.CanonicalRegion
import FabEdit.Proofs.InsertedLines
import FabEdit.Proofs.LexerTiling
import FabEdit.Proofs.LexerRestart
import FabEdit.Proofs.CommentGrammar
import FabEdit.Proofs.CodeTokens
import FabEdit.Proofs.RegionDepth
import FabEdit.Proofs.EngineAnswers
import FabEdit.Proofs.LineByLine
import FabEdit.Proofs.LineEnds
import FabEdit.Proofs.ConfigScopes
import FabEdit.Proofs.JoinedTexts
import FabEdit.Proofs.CommentLines
import FabEdit.Proofs.WalkUp
import FabEdit.Proofs.ShiftedLines
import FabEdit.Proofs.ColouredRuns
import FabEdit.Proofs.WholeWords
import FabEdit.Proofs.BlankScans
import FabEdit.Proofs.CanonicalSets
import FabEdit.Proofs.ConfigSpellings
import FabEdit.Proofs.TabStops
