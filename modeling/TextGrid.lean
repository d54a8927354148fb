import TextGrid.Proofs.AlignedTables
import TextGrid.Proofs.EvictionOrder
import TextGrid.Proofs.ExactSplits
import TextGrid.Proofs.FaultyMarkup
import TextGrid.Proofs.GivingBack
import TextGrid.Proofs.InvisibleMarkup
import TextGrid.Proofs.LineBreaks
import TextGrid.Proofs.NormalRecords
import TextGrid.Proofs.PaddedWidths
import TextGrid.Proofs.Paths
import TextGrid.Proofs.RememberedWidths
import TextGrid.Proofs.RepeatedCuts
import TextGrid.Proofs.RewrappedLines
import TextGrid.Proofs.StrippedText
import TextGrid.Proofs.TruncatedStyles
import TextGrid.Proofs.Widening
import TextGrid.Proofs.WrappedStyles
import TextGrid.Settings.File
import TextGrid.Template
