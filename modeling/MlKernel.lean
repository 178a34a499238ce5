import MlKernel.Mpp.EventRing
import MlKernel.Mpp.Sysctl
import MlKernel.Mmz.Device
import MlKernel.Mmz.ZoneRun
import MlKernel.Sdio.TunnelRun
import MlKernel.Mmz.UserMap
import MlKernel.Mmz.UserMapRun
import MlKernel.Mmz.VirtLookup
import MlKernel.Mmz.VbPool
import MlKernel.Mmz.VbRun
import MlKernel.Mmz.VbHandle
import MlKernel.Mpp.Engines
import MlKernel.Mpp.EngineRun
import MlKernel.Dma.CoherentPool
import MlKernel.Dma.PoolReport
import MlKernel.Dma.MmzHeap
import MlKernel.Dma.BufCache
import MlKernel.Sdio.OpGate
import MlKernel.Sdio.TxThreads
import MlKernel.Sdio.TxInflight
import MlKernel.Sdio.TxWake
import MlKernel.Sdio.Recv
import MlKernel.Sdio.CmdRx
import MlKernel.Media.Csi2
import MlKernel.Media.Csi2Phy
import MlKernel.Media.Cvisp
import MlKernel.Media.CvispMoves
import MlKernel.Media.CvispRun
import MlKernel.Media.Vif
import MlKernel.Media.VifRun
import MlKernel.Clk.CpuClk
import MlKernel.Sensor.GroupHold
import MlKernel.Sensor.ExposureControls
import MlKernel.Vo.Scanout
import MlKernel.Isp.LtmPage
import MlKernel.Scaler.Completion
import MlKernel.Scaler.Descriptor
import MlKernel.Scaler.DmabufBatch
import MlKernel.Scaler.Submit
import MlKernel.Isp.Codec
import MlKernel.Isp.Tone
import MlKernel.Isp.SoftFloatCorrect
import MlKernel.Lib.Buckets
import MlKernel.Lib.Refinement
import MlKernel.Lib.RegisterBank
import MlKernel.Isp.NoiseLadders
import MlKernel.Isp.ColourLadders
import MlKernel.Isp.LaddersApply
import MlKernel.Isp.LadderStages
import MlKernel.Isp.LadderParity
import MlKernel.Lib.Tiling
import MlKernel.Lib.LittleEndian
import MlKernel.Sdio.RomLoader
import MlKernel.Sdio.RecvRuns
import MlKernel.Lib.Chunks
import MlKernel.Spi.Ar9301
import MlKernel.Spi.Ar9301Run
import MlKernel.Wave5.ForcedIdr
import MlKernel.Wave5.ForcedIdrRun
import MlKernel.Wave5.ReportQueue
import MlKernel.Wave5.Close
import MlKernel.Wave5.CloseRun
import MlKernel.Lib.LowBit
import MlKernel.Dma.DmaBlit
import MlKernel.Dma.DmaBlitChain
import MlKernel.Dma.DmaBlitRun
import MlKernel.Mpp.ProcCtrl
import MlKernel.Mpp.ProcCtrlRun
import MlKernel.Wave5.EncJobs
import MlKernel.Wave5.EncJobsRun
import MlKernel.Vo.OvlBanks
import MlKernel.Vo.OvlCommits
import MlKernel.Lib.Emission
import MlKernel.Sdio.FirmwareImage
import MlKernel.Clk.Leaf
import MlKernel.Clk.LeafRun
import MlKernel.Clk.PixelPll
import MlKernel.Lib.KeepBest
import MlKernel.Clk.CpuRate
import MlKernel.Lib.Binary32Order
import MlKernel.Lib.Blend
import MlKernel.Isp.BandWalk
import MlKernel.Isp.GapLaw
import MlKernel.Isp.ToneSelect
import MlKernel.Isp.Words
import MlKernel.Isp.GammaPage
import MlKernel.Isp.DrcBank
import MlKernel.Lib.FieldBank
import MlKernel.Lib.Staircase
import MlKernel.Isp.LnrBank
import MlKernel.Media.BlackLevel
import MlKernel.Media.BlackLevelLaw
import MlKernel.Wave5.SrcStride
import MlKernel.Lib.DivRound
import MlKernel.Pwm.ArtosynPwm
import MlKernel.Iio.ProTemp
import MlKernel.Gpio.ArtosynGpio
import MlKernel.Isp.FusedBlend
import MlKernel.Isp.Bringup
import MlKernel.Isp.LensShading
