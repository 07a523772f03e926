import GuacNebula.Rdp.DirectoryListing
import GuacNebula.Audio.Resampling
import GuacNebula.Lib.Moves
import GuacNebula.Terminal.DisplayFlush
import GuacNebula.Terminal.Operations
import GuacNebula.Terminal.Cursor
import GuacNebula.Terminal.OscStrings
import GuacNebula.Terminal.ParserStatics
import GuacNebula.Ssh.Sftp
import GuacNebula.Rdp.Confinement
import GuacNebula.Rdp.Cliprdr
import GuacNebula.Rdp.CommonSvc
import GuacNebula.Rdp.Completion
import GuacNebula.Rdp.KeyboardBalance
import GuacNebula.Rdp.KeyboardUpdates
import GuacNebula.Terminal.SelectionRows
import GuacNebula.Terminal.Typescript
import GuacNebula.Terminal.PipeStreams
import GuacNebula.Common.JsonStream
import GuacNebula.Rdp.ClipboardResponse
import GuacNebula.Terminal.ClipboardBlobs
import GuacNebula.Terminal.ScrollPosition
import GuacNebula.Terminal.SelectionTouch
import GuacNebula.Terminal.CursorRuns
import GuacNebula.Rdp.Rdpsnd
import GuacNebula.Rdp.PrintFlow
import GuacNebula.Common.JsonValidity
import GuacNebula.Ssh.Download
import GuacNebula.Common.SurfaceUpdates
import GuacNebula.Rdp.TouchContacts
import GuacNebula.Rdp.DrawingTarget
import GuacNebula.Rdp.BitmapDrawing
import GuacNebula.Rdp.CachedBitmap
import GuacNebula.Terminal.CursorMoves
import GuacNebula.Terminal.CsiParameters
import GuacNebula.Terminal.CopyBounds
import GuacNebula.Rdp.AudioFormats
import GuacNebula.Rdp.FileNames
import GuacNebula.Terminal.EditLimits
import GuacNebula.Terminal.LineLimits
import GuacNebula.Terminal.CellBounds
import GuacNebula.Terminal.EchoDecoding
import GuacNebula.Terminal.GraphicsArguments
import GuacNebula.Terminal.FormattedOutput
import GuacNebula.Terminal.TypescriptNames
import GuacNebula.Terminal.TabStops
import GuacNebula.Terminal.PaletteCommands
import GuacNebula.Terminal.ScrollbarHandle
import GuacNebula.Terminal.SelectionResume
import GuacNebula.Terminal.SelectionCopy
import GuacNebula.Terminal.StaleText
import GuacNebula.Terminal.NamedColors
import GuacNebula.Terminal.ColorScheme
import GuacNebula.Common.SurfaceContents
import GuacNebula.Common.SurfaceAccess
import GuacNebula.Common.SurfacePixels
import GuacNebula.Common.CharsetReaders
import GuacNebula.Common.CharsetConversion
import GuacNebula.Common.ConversionPrefix
import GuacNebula.Common.ConvertedText
import GuacNebula.Common.Utf16RoundTrip
import GuacNebula.Common.LineEndings
import GuacNebula.Common.HeatMap
import GuacNebula.Common.RectSplit
import GuacNebula.Rdp.PathStack
import GuacNebula.Rdp.PathScratch
import GuacNebula.Ssh.PathAgreement
import GuacNebula.Rdp.CombinedPath
import GuacNebula.Ssh.AppendedName
import GuacNebula.Rdp.Posix
import GuacNebula.Rdp.Volume
import GuacNebula.Rdp.FileSize
import GuacNebula.Rdp.FailedOpen
import GuacNebula.Rdp.RecordedPaths
import GuacNebula.Rdp.RenamedFile
import GuacNebula.Rdp.Beep
import GuacNebula.Rdp.DisplaySize
import GuacNebula.Rdp.UploadPath
import GuacNebula.Rdp.PrintTitle
import GuacNebula.Rdp.ConvertedPath
import GuacNebula.Rdp.DirectoryReplies
import GuacNebula.Rdp.AudioInput
import GuacNebula.Rdp.KeymapInheritance
import GuacNebula.Rdp.KeyboardOutcomes
import GuacNebula.Rdp.DeadKeys
import GuacNebula.Ssh.Buffer
import GuacNebula.Common.Split
import GuacNebula.Common.List
import GuacNebula.Common.Display
import GuacNebula.Ssh.AgentFraming
import GuacNebula.Lib.Audience
import GuacNebula.Common.Cursor
import GuacNebula.Common.LayerProperties
import GuacNebula.Lib.Sink
import GuacNebula.Terminal.StdinAnswers
import GuacNebula.Terminal.Input
import GuacNebula.Terminal.InputRuns
import GuacNebula.Terminal.TypedText
import GuacNebula.Rdp.DisplayUpdates
import GuacNebula.Rdp.PipeSvc
import GuacNebula.Terminal.Prompt
import GuacNebula.Ssh.Credentials
import GuacNebula.Ssh.Session
import GuacNebula.Ssh.SessionOutcomes
import GuacNebula.Ssh.Login
import GuacNebula.Rdp.FileContents
import GuacNebula.Rdp.Upload
import GuacNebula.Rdp.StoredUpload
import GuacNebula.Rdp.SentDownload
import GuacNebula.Rdp.UploadRoundTrip
